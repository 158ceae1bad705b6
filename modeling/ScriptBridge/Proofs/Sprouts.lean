import ScriptBridge.Host.Marshal
import ScriptBridge.Proofs.Abreast

/-!
Programs that make new cells in twin worlds: wrappers and tables. What one world gets the other gets as
well, each at a place of its own, and the results are handles on such cells or the same.
-/

namespace ScriptBridge

open ScriptBridge.Action (Follows FollowsIn)
open Script (Cell Datum Table)

variable {g : Setting} {n : Nat} {news : List Counterpart} {α β : Type}

/-- Worlds that have got further cells. -/
def Setting.Grown (g : Setting) (news : List Counterpart) (w w' : World) : Prop :=
  ∃ more, news ⊆ more ∧ g.twins more w w'

theorem Setting.Grown.refl {w w' : World} (twins : g.twins news w w') : g.Grown news w w' :=
  ⟨news, List.Subset.refl _, twins⟩

/-- A second program follows a first one, and both make new cells that stand for each other. -/
abbrev Sprouts (g : Setting) (n : Nat) (news : List Counterpart) (a a' : Action α)
    (V : List Counterpart → α → α → Prop) : Prop :=
  Follows n (g.twins news) a a' (fun x x' w w' => ∃ more, news ⊆ more ∧ V more x x' ∧ g.twins more w w')
    (g.Grown news)

namespace Sprouts

variable {V : List Counterpart → α → α → Prop}

/-- Nothing new is made. -/
theorem of_keeps {a a' : Action α} {U : α → α → Prop} (follows : FollowsIn n (g.twins news) a a' U)
    (same : ∀ x x', U x x' → V news x x') : Sprouts g n news a a' V :=
  follows.mono (fun _ _ => id)
    (fun x x' _ _ ⟨alike, twins⟩ => ⟨news, List.Subset.refl _, same x x' alike, twins⟩)
    fun _ _ => Setting.Grown.refl

theorem pure {x x' : α} (same : V news x x') : Sprouts g n news (Pure.pure x) (Pure.pure x') V :=
  Follows.pure fun _ _ twins => ⟨news, List.Subset.refl _, same, twins⟩

theorem throw (e : BridgeError) : Sprouts g n news (Action.throw e : Action α) (.throw e) V :=
  Follows.throw fun _ _ => Setting.Grown.refl

theorem bind {a a' : Action α} {f f' : α → Action β} {V' : List Counterpart → β → β → Prop}
    (first : Sprouts g n news a a' V)
    (rest : ∀ more, news ⊆ more → ∀ x x', V more x x' → Sprouts g n more (f x) (f' x') V') :
    Sprouts g n news (a >>= f) (a' >>= f') V' := by
  refine Follows.bind first fun x x' => Follows.of_exists fun more => ?_
  rintro w w' ⟨older, same, twins⟩
  refine (rest more older x x' same).mono (fun _ _ => id) ?_ ?_ w w' twins
  · rintro y y' v v' ⟨most, old, alike, twins⟩
    exact ⟨most, List.Subset.trans older old, alike, twins⟩
  · rintro v v' ⟨most, old, twins⟩
    exact ⟨most, List.Subset.trans older old, twins⟩

/-- Results that say less. -/
theorem weaken {a a' : Action α} {V' : List Counterpart → α → α → Prop}
    (sprouts : Sprouts g n news a a' V) (weaker : ∀ more x x', V more x x' → V' more x x') :
    Sprouts g n news a a' V' :=
  sprouts.mono (fun _ _ => id)
    (fun x x' _ _ ⟨more, older, same, twins⟩ => ⟨more, older, weaker more x x' same, twins⟩)
    fun _ _ => id

theorem map {a a' : Action α} {V' : List Counterpart → β → β → Prop} {f : α → β}
    (sprouts : Sprouts g n news a a' V) (same : ∀ more x x', V more x x' → V' more (f x) (f x')) :
    Sprouts g n news (f <$> a) (f <$> a') V' := by
  rw [map_eq_pure_bind, map_eq_pure_bind]
  exact sprouts.bind fun more _ x x' alike => pure (same more x x' alike)

/-- What follows programs that make nothing new. -/
theorem after {a a' : Action α} {U : α → α → Prop} {f f' : α → Action β}
    {V' : List Counterpart → β → β → Prop} (first : FollowsIn n (g.twins news) a a' U)
    (rest : ∀ x x', U x x' → Sprouts g n news (f x) (f' x') V') :
    Sprouts g n news (a >>= f) (a' >>= f') V' := by
  refine Follows.bind (P := fun x x' w w' => U x x' ∧ g.twins news w w')
    (first.mono (fun _ _ => id) (fun _ _ _ _ => id) fun _ _ => Setting.Grown.refl) fun x x' => ?_
  exact fun w w' ⟨same, twins⟩ => rest x x' same w w' twins

theorem after_eq {a a' : Action α} {f f' : α → Action β} {V' : List Counterpart → β → β → Prop}
    (first : FollowsIn n (g.twins news) a a' fun x x' => x' = x)
    (rest : ∀ x, Sprouts g n news (f x) (f' x) V') : Sprouts g n news (a >>= f) (a' >>= f') V' :=
  after first fun x x' same => by
    rw [same]
    exact rest x

/-- What follows a look at the world that may fail, if it shows the same to both. -/
theorem check {look look' : World → Except BridgeError α} {f f' : α → Action β}
    {V' : List Counterpart → β → β → Prop} (same : ∀ w w', g.twins news w w' → look' w' = look w)
    (rest : ∀ x, Sprouts g n news (f x) (f' x) V') :
    Sprouts g n news (.view look >>= fun found => .ofExcept found >>= f)
      (.view look' >>= fun found => .ofExcept found >>= f') V' :=
  Follows.view_eq same fun _ => after_eq follows_ofExcept rest

theorem within [Holding α] {s : Scope} {a a' : Action α} (inside : Sprouts g n news a a' V) :
    Sprouts g n news (.within s a) (.within s a') V :=
  Follows.within (fun _ _ twins => twins.enter s) inside
    (fun _ _ _ _ ⟨more, old, same, twins⟩ => ⟨more, old, same, twins.exit s _ _⟩)
    fun _ _ ⟨more, old, twins⟩ => ⟨more, old, twins.exit s _ _⟩

/-- A new cell. -/
theorem allocate {s : StateId} (isOpen : g.before.isOpen s) {kind : HandleKind} {c c' : Cell}
    (like : Cell.Like news kind c c') :
    Sprouts g n news (.perform (.allocate s c)) (.perform (.allocate s c')) fun more r r' =>
      ⟨kind, r, r'⟩ ∈ more :=
  .perform fun _ _ twins =>
    ⟨_, List.subset_cons_self .., List.mem_cons_self, twins.allocate isOpen like⟩

end Sprouts

/-- Handles on cells that are new in both worlds. -/
def Value.New (kind : HandleKind) (news : List Counterpart) (v v' : Value) : Prop :=
  ∃ r r' a a', v = .handle ⟨kind, r, a⟩ ∧ v' = .handle ⟨kind, r', a'⟩ ∧ ⟨kind, r, r'⟩ ∈ news

theorem Value.New.like {kind : HandleKind} {v v' : Value} (new : v.New kind news v') :
    v.Like news v' := by
  obtain ⟨r, r', a, a', rfl, rfl, member⟩ := new
  exact .made kind a a' member

section Making

variable {s : StateId} (isOpen : g.before.isOpen s)
include isOpen

theorem sprouts_made {kind : HandleKind} {c c' : Cell} (like : Cell.Like news kind c c') :
    Sprouts g n news (.operation s (do Value.anchored kind (← .perform (.allocate s c))))
      (.operation s (do Value.anchored kind (← .perform (.allocate s c')))) (Value.New kind) := by
  refine .within ((Sprouts.allocate isOpen like).bind fun more _ r r' new => ?_)
  refine .of_keeps (follows_anchored kind r r') ?_
  rintro _ _ ⟨a, a', rfl, rfl⟩
  exact ⟨r, r', a, a', rfl, rfl, new⟩

theorem sprouts_wrapNativeId (m : NativeId) :
    Sprouts g n news (wrapNativeId s m) (wrapNativeId s m) (Value.New .userdata) :=
  sprouts_made isOpen (.native m)

theorem sprouts_newTable : Sprouts g n news (TableOps.newTable s) (TableOps.newTable s)
    (Value.New .table) :=
  sprouts_made isOpen (.table .nil)

theorem sprouts_wrapNative (native : Native) :
    Sprouts g n news (wrapNative s native) (wrapNative s native) (Value.New .userdata) := by
  have made : FollowsIn n (g.twins news) (.perform (.newNative native)) (.perform (.newNative native))
      fun x x' => x' = x := by
    refine follows_host id id fun w w' host => ⟨?_, ?_⟩
    · have next (w : World) : w.natives.next = w.host.natives.next := by simp [World.host]
      change w'.natives.next = w.natives.next
      rw [next, next w, host]
    · change (w'.newNative native).2.host = (w.newNative native).2.host
      rw [World.host_newNative, World.host_newNative, host]
  exact Sprouts.after_eq made fun m => sprouts_wrapNativeId isOpen m

/-- The wrapper of an object is the same, or it is new. -/
theorem sprouts_wrapObject (o : ObjectId) (ownership : Ownership) :
    Sprouts g n news (wrapObject s o ownership) (wrapObject s o ownership) Value.Like := by
  refine Sprouts.within (Follows.view (V := fun x x' => (x = none ∧ x' = none) ∨
    ∃ r r', x = some r ∧ x' = some r' ∧ g.before.Stands news r r')
    (fun _ _ twins => twins.wrapperOf? s o) ?_)
  rintro _ _ (⟨rfl, rfl⟩ | ⟨r, r', rfl, rfl, stands⟩)
  · have wrapped : FollowsIn n (g.twins news) (.perform (.newWrapper o ownership))
        (.perform (.newWrapper o ownership)) fun m m' => m' = m := by
      refine follows_host id id fun w w' host => ?_
      obtain ⟨given, left⟩ := w.newWrapper_host o ownership
      obtain ⟨given', left'⟩ := w'.newWrapper_host o ownership
      rw [host] at given' left'
      exact ⟨given'.trans given.symm, left'.trans left.symm⟩
    refine Sprouts.after_eq wrapped fun m => ?_
    refine (sprouts_wrapNativeId isOpen m).bind ?_
    rintro more - _ _ ⟨r, r', a, a', rfl, rfl, new⟩
    have cached : FollowsIn n (g.twins more) (.perform (.cacheWrapper s o r))
        (.perform (.cacheWrapper s o r')) fun _ _ => True :=
      .perform fun _ _ twins => ⟨trivial, twins.cacheWrapper s o (.inr new)⟩
    exact Sprouts.after cached fun _ _ _ => Sprouts.pure (.made .userdata a a' new)
  · refine Sprouts.of_keeps (follows_anchored .userdata r r') ?_
    rintro _ _ ⟨a, a', rfl, rfl⟩
    rcases stands with ⟨rfl, -⟩ | new
    · exact .same rfl
    · exact .made .userdata a a' new

end Making

section Filling

theorem Script.Datum.Like.isNil {d d' : Datum} (like : d.Like news d') : d'.isNil = d.isNil := by
  cases like with
  | same => rfl
  | made kind => cases kind <;> rfl

/-- Anchors are not seen in an engine. -/
theorem Script.Datum.Like.handle {r r' : Ref} (kind : HandleKind) (new : ⟨kind, r, r'⟩ ∈ news)
    (a a' : AnchorId) : Like news (Handle.datum ⟨kind, r, a⟩) (Handle.datum ⟨kind, r', a'⟩) := by
  have blind (r : Ref) (a : AnchorId) : Handle.datum ⟨kind, r, a⟩ = Handle.datum ⟨kind, r, 0⟩ := by
    cases kind <;> rfl
  rw [blind, blind r']
  exact .made kind new

/-- Values that are the same, or handles on new cells, are such data. -/
theorem follows_toDatum_like (s : StateId) {v v' : Value} (like : v.Like news v') :
    FollowsIn n (g.twins news) (v.toDatum s) (v'.toDatum s) (Datum.Like news) := by
  cases like with
  | same same =>
    refine (follows_toDatum s same).weaken fun d d' equal => ?_
    rw [equal]
    exact .same d
  | @made r r' kind a a' new =>
    refine .of_related fun w w' twins => ?_
    have owner : r'.owner = r.owner := (twins.fresh _ new).2.2
    refine Follows.view (V := fun x x' => (∃ e, x = .error e ∧ x' = .error e) ∨
      ∃ d d', x = .ok d ∧ x' = .ok d' ∧ d.Like news d') (fun w w' twins => ?_) ?_
    · have open' := twins.isOpen r.owner
      unfold Value.datum Handle.state
      dsimp only
      rw [owner, open']
      by_cases gone : !w.isOpen r.owner
      · exact .inl ⟨_, by rw [if_pos gone], by rw [if_pos gone]⟩
      · by_cases foreign : r.owner ≠ s
        · exact .inl ⟨_, by rw [if_neg gone, if_pos foreign], by rw [if_neg gone, if_pos foreign]⟩
        · exact .inr ⟨_, _, by rw [if_neg gone, if_neg foreign], by rw [if_neg gone, if_neg foreign],
            .handle kind new a a'⟩
    · rintro _ _ (⟨e, rfl, rfl⟩ | ⟨d, d', rfl, rfl, like⟩)
      · exact .throw fun _ _ => id
      · exact .pure fun _ _ twins => ⟨like, twins⟩

theorem Script.Table.entries_set (t : Table) (key value : Datum) : (t.set key value).entries =
    if t.entries.any (·.1 == key.toKey) then replace key.toKey value t.entries
    else if value.isNil then t.entries
    else place key.toKey value t.entries := by
  unfold Table.set
  split
  · rfl
  · split <;> rfl

section Entries

variable {entries entries' : List (Datum × Datum)}
  (like : List.Forall₂ (fun e e' => e'.1 = e.1 ∧ e.2.Like news e'.2) entries entries') (key : Datum)
  {d d' : Datum} (same : d.Like news d')
include like same

theorem like_replace : List.Forall₂ (fun e e' => e'.1 = e.1 ∧ e.2.Like news e'.2)
    (Table.replace key d entries) (Table.replace key d' entries') := by
  induction like with
  | nil => exact .nil
  | @cons e e' _ _ first rest ih =>
    obtain ⟨k, v⟩ := e
    obtain ⟨k', v'⟩ := e'
    obtain ⟨rfl, value⟩ := first
    unfold Table.replace
    split
    · exact .cons ⟨rfl, same⟩ rest
    · exact .cons ⟨rfl, value⟩ ih

theorem like_place : List.Forall₂ (fun e e' => e'.1 = e.1 ∧ e.2.Like news e'.2)
    (Table.place key d entries) (Table.place key d' entries') := by
  induction like with
  | nil => exact .cons ⟨rfl, same⟩ .nil
  | @cons e e' _ _ first rest ih =>
    obtain ⟨k, v⟩ := e
    obtain ⟨k', v'⟩ := e'
    obtain ⟨rfl, value⟩ := first
    unfold Table.place
    split
    · exact .cons ⟨rfl, same⟩ (.cons ⟨rfl, value⟩ rest)
    · exact .cons ⟨rfl, value⟩ ih

end Entries

/-- Tables that have such data under the same keys still do when both take such data. -/
theorem Script.Cell.Like.set {content content' : Table} (like : Cell.Like news .table
    (.table content none) (.table content' none)) (key : Datum) {d d' : Datum} (same : d.Like news d') :
    Cell.Like news .table (.table (content.set key d) none) (.table (content'.set key d') none) := by
  cases like with
  | table entries =>
    have present : content'.entries.any (·.1 == key.toKey) = content.entries.any (·.1 == key.toKey) := by
      generalize content.entries = l at entries
      generalize content'.entries = l' at entries
      induction entries with
      | nil => rfl
      | cons first _ ih => rw [List.any_cons, List.any_cons, first.1, ih]
    refine .table ?_
    rw [Table.entries_set, Table.entries_set, present, same.isNil]
    split
    · exact like_replace entries key.toKey same
    · split
      · exact entries
      · exact like_place entries key.toKey same

/-- New tables that stand for each other take such data alike. -/
theorem follows_assign {r r' : Ref} (new : ⟨.table, r, r'⟩ ∈ news) (i : Int64) {d d' : Datum}
    (like : d.Like news d') :
    FollowsIn n (g.twins news) (runTask r.owner (.assign (.table r) (.int i) d))
      (runTask r'.owner (.assign (.table r') (.int i) d')) fun _ _ => True := by
  intro w w' twins _
  cases n with
  | zero => exact .inr ⟨.failed BridgeError.tooDeep, w, w', rfl, rfl, twins⟩
  | succ k =>
    obtain ⟨c, c', found, found', same⟩ := twins.cells _ new
    cases same with
    | table entries =>
      have writes {w : World} {r : Ref} {content : Table}
          (found : w.cell? r = some (.table content none)) (d : Datum) :=
        Script.straight_writeMember found (.int i) rfl (.inl rfl) d
      exact .inl ⟨_, _, _, _, Action.runTo_runTask (writes found d),
        Action.runTo_runTask (writes found' d'), trivial,
        twins.write new found found' ((Cell.Like.table entries).set (.int i) like)⟩

/-- New tables that stand for each other take such values alike. -/
theorem follows_set {r r' : Ref} (new : ⟨.table, r, r'⟩ ∈ news) (i : Int64) {v v' : Value}
    (like : v.Like news v') :
    FollowsIn n (g.twins news) (TableOps.set r (.int i) v) (TableOps.set r' (.int i) v')
      fun _ _ => True := by
  refine .of_related fun w w' twins => ?_
  have owner : r'.owner = r.owner := (twins.fresh _ new).2.2
  have keyed : FollowsIn n (g.twins news) ((Value.int i).toDatum r.owner) ((Value.int i).toDatum r.owner)
      fun d d' => d = .int i ∧ d' = .int i := by
    refine .view (V := fun x x' => x = .ok (.int i) ∧ x' = .ok (.int i)) (fun _ _ _ => ⟨rfl, rfl⟩) ?_
    rintro _ _ ⟨rfl, rfl⟩
    exact .pure fun _ _ twins => ⟨⟨rfl, rfl⟩, twins⟩
  have assigned (d d' : Datum) (like : d.Like news d') := follows_assign (g := g) (n := n) new i like
  unfold TableOps.set
  rw [owner] at assigned ⊢
  refine follows_within (keyed.next ?_)
  rintro _ _ ⟨rfl, rfl⟩
  exact (follows_toDatum_like r.owner like).next fun d d' like => (assigned d d' like).discard

end Filling

section Values

variable {s : StateId}

mutual

/-- Host values that are the same but for their anchors become such values of a state. -/
theorem sprouts_toValue (isOpen : g.before.isOpen s) (news : List Counterpart) {v v' : HostValue}
    (same : v.Same v') :
    Sprouts g n news (v.toValue s) (v'.toValue s) Value.Like := by
  have plain {x : Value} : Sprouts g n news (pure x) (pure x) Value.Like :=
    Sprouts.pure (.same rfl)
  cases v with
  | variant v =>
    cases v' with
    | variant v' => exact Sprouts.pure (.same (HostValue.variant.inj same))
    | _ => cases same
  | list items =>
    cases v' with
    | list items' =>
      refine (sprouts_newTable isOpen).bind fun more _ => ?_
      rintro _ _ ⟨r, r', a, a', rfl, rfl, new⟩
      refine (sprouts_fillTable isOpen more new 1 (HostValue.list.inj same)).bind fun most older _ _ _ => ?_
      exact Sprouts.pure (.made .table a a' (older new))
    | _ => cases same
  | object o =>
    cases v' with
    | object =>
      cases same
      cases o with
      | some o => exact sprouts_wrapObject isOpen o .native
      | none => exact plain
    | _ => cases same
  | native m =>
    cases v' with
    | native =>
      cases same
      cases m with
      | some m =>
        exact (sprouts_wrapNativeId isOpen m).weaken fun _ _ _ new => new.like
      | none => exact plain
    | _ => cases same
  | _ => cases v' <;> first | (cases same; exact plain) | cases same

theorem sprouts_fillTable (isOpen : g.before.isOpen s) (news : List Counterpart) {r r' : Ref}
    (new : ⟨.table, r, r'⟩ ∈ news) (position : Nat) {items items' : List HostValue}
    (same : HostValue.bareAll items' = HostValue.bareAll items) :
    Sprouts g n news (HostValue.fillTable s r position items)
      (HostValue.fillTable s r' position items') fun _ _ _ => True := by
  cases items with
  | nil => cases items' with
    | nil => exact Sprouts.pure trivial
    | cons => cases same
  | cons item rest => cases items' with
    | nil => cases same
    | cons item' rest' =>
      obtain ⟨first, others⟩ := List.cons_eq_cons.mp same
      refine (sprouts_toValue isOpen news first).bind fun more older v v' like => ?_
      exact Sprouts.after (follows_set (older new) _ like) fun _ _ _ =>
        sprouts_fillTable isOpen more (older new) (position + 1) others

end

end Values

end ScriptBridge
