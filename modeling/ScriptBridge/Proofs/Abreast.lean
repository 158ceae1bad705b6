import ScriptBridge.Proofs.Follows
import ScriptBridge.Proofs.Frames
import ScriptBridge.Proofs.Twins

/-!
Programs of the host in twin worlds: on operands that are the same but for their anchors they take the
same course, as long as no code of scripts takes part, and leave twin worlds.
-/

namespace ScriptBridge

open ScriptBridge.Action (Follows FollowsIn Unscripted)
open Script (Cell Datum Table Thread)

/-- Where a script is at work: the world before, the coroutine in which it runs there, and what waits in
that coroutine meanwhile. -/
structure Setting where
  before : World
  thread : Ref
  waiting : Option Thread
  runs : (before.engine? thread.owner).map (·.running) = some thread

namespace Setting

/-- Worlds of which the second one has a script at work. -/
abbrev twins (g : Setting) (news : List Counterpart) : World → World → Prop :=
  g.before.Twins g.thread g.waiting news

end Setting

section Elementary

variable {g : Setting} {n : Nat} {news : List Counterpart}

theorem follows_ofExcept {α : Type} {given : Except BridgeError α} :
    FollowsIn n (g.twins news) (.ofExcept given) (.ofExcept given) fun x x' => x' = x := by
  cases given with
  | ok x => exact .pure fun w w' twins => ⟨rfl, twins⟩
  | error e => exact .throw fun w w' => id

/-- What follows a look at the world that may fail, if it shows the same to both. -/
theorem follows_check {α β : Type} {look look' : World → Except BridgeError α} {f f' : α → Action β}
    {P : β → β → World → World → Prop}
    (same : ∀ w w', g.twins news w w' → look' w' = look w)
    (rest : ∀ x, Follows n (g.twins news) (f x) (f' x) P (g.twins news)) :
    Follows n (g.twins news) (.view look >>= fun found => .ofExcept found >>= f)
      (.view look' >>= fun found => .ofExcept found >>= f') P (g.twins news) := by
  exact .view_eq same fun _ => follows_ofExcept.next_eq rest

/-- What an elementary operation does on the host's side. -/
theorem follows_host {β : Type} {o o' : Op β} (untouched : ¬ o.TouchesEngines)
    (untouched' : ¬ o'.TouchesEngines)
    (course : ∀ w w', w'.host = w.host →
      (o'.apply w').1 = (o.apply w).1 ∧ (o'.apply w').2.host = (o.apply w).2.host) :
    FollowsIn n (g.twins news) (.perform o) (.perform o') fun x x' => x' = x :=
  .perform fun w w' twins => ⟨(course w w' twins.host).1,
    twins.of_host (Op.engines_apply w untouched) (Op.engines_apply w' untouched')
      (course w w' twins.host).2⟩

/-- An operation of the bridge, or a scope for values. -/
theorem follows_within {α : Type} [Holding α] {s : Scope} {a a' : Action α} {V : α → α → Prop}
    (inside : FollowsIn n (g.twins news) a a' V) :
    FollowsIn n (g.twins news) (.within s a) (.within s a') V :=
  .within (fun _ _ twins => twins.enter s) inside
    (fun _ _ _ _ ⟨alike, twins⟩ => ⟨alike, twins.exit s _ _⟩) fun _ _ twins => twins.exit s _ _

theorem follows_attempt {α : Type} [Holding α] {a a' : Action α} {V : α → α → Prop}
    (inside : FollowsIn n (g.twins news) a a' V) :
    FollowsIn n (g.twins news) (.attempt a) (.attempt a') fun x x' =>
      (∃ y y', x = .ok y ∧ x' = .ok y' ∧ V y y') ∨ ∃ e, x = .error e ∧ x' = .error e :=
  .attempt (fun _ _ twins => twins.enter .values) (fun held held' _ _ twins =>
    twins.exit .values held held') inside

theorem follows_anchored (kind : HandleKind) (r r' : Ref) :
    FollowsIn n (g.twins news) (Value.anchored kind r) (Value.anchored kind r') fun v v' =>
      ∃ a a', v = .handle ⟨kind, r, a⟩ ∧ v' = .handle ⟨kind, r', a'⟩ := by
  refine (Follows.perform (P := fun _ _ => g.twins news) fun w w' twins =>
    twins.rebooked (.anchor w r) (.anchor w' r')).bind fun a a' => ?_
  exact .pure fun _ _ twins => ⟨⟨a, a', rfl, rfl⟩, twins⟩

end Elementary

section Conversions

variable {g : Setting} {n : Nat}

/-- Values that are the same but for their anchors. -/
abbrev Value.Same (v v' : Value) : Prop := v'.bare = v.bare

abbrev HostValue.Same (v v' : HostValue) : Prop := v'.bare = v.bare

theorem HostValue.forall₂_same {items items' : List HostValue} :
    List.Forall₂ HostValue.Same items items' ↔ bareAll items' = bareAll items := by
  rw [bareAll_eq, bareAll_eq]
  constructor
  · intro related
    induction related with
    | nil => rfl
    | cons first _ ih => exact congrArg₂ List.cons first ih
  · intro same
    induction items generalizing items' with
    | nil => cases items' with
      | nil => exact .nil
      | cons => cases same
    | cons item rest ih => cases items' with
      | nil => cases same
      | cons item' rest' =>
        obtain ⟨first, others⟩ := List.cons_eq_cons.mp same
        exact .cons first (ih others)

/-- The argument at a position. -/
theorem HostValue.same_getD {items items' : List HostValue}
    (same : List.Forall₂ HostValue.Same items items') (k : Nat) :
    (items.getD k .void).Same (items'.getD k .void) := by
  induction same generalizing k with
  | nil => rfl
  | cons first _ ih => cases k with
    | zero => exact first
    | succ k => exact ih k

/-- What does not look into values and lists is the same. -/
theorem HostValue.congr_same {γ : Type} {f : HostValue → γ}
    (variants : ∀ v v', f (.variant v) = f (.variant v'))
    (lists : ∀ items items', f (.list items) = f (.list items')) {v v' : HostValue} (same : v.Same v') :
    f v' = f v := by
  cases v with
  | variant => cases v' <;> first | exact variants _ _ | cases same
  | list => cases v' <;> first | exact lists _ _ | cases same
  | _ => cases v' <;> first | (cases same; rfl) | cases same

theorem Value.forall₂_same {values values' : List Value} :
    List.Forall₂ Value.Same values values' ↔ values'.map bare = values.map bare := by
  constructor
  · intro related
    induction related with
    | nil => rfl
    | cons first _ ih => exact congrArg₂ List.cons first ih
  · intro same
    induction values generalizing values' with
    | nil => cases values' with
      | nil => exact .nil
      | cons => cases same
    | cons v rest ih => cases values' with
      | nil => cases same
      | cons v' rest' =>
        obtain ⟨first, others⟩ := List.cons_eq_cons.mp same
        exact .cons first (ih others)

theorem Value.datum_same {news : List Counterpart} {w w' : World} (twins : g.twins news w w')
    (s : StateId) {v v' : Value} (same : v.Same v') : v'.datum w' s = v.datum w s := by
  have blind : v'.datum w' s = v.datum w' s := congr_bare (f := (·.datum w' s)) (fun kind r a => by
    cases kind <;> rfl) same
  rw [blind]
  cases v <;> simp only [datum, twins.isOpen]

theorem follows_toDatum {news : List Counterpart} (s : StateId) {v v' : Value} (same : v.Same v') :
    FollowsIn n (g.twins news) (v.toDatum s) (v'.toDatum s) fun d d' => d' = d :=
  .view_eq (fun _ _ twins => Value.datum_same twins s same) fun _ => follows_ofExcept

theorem follows_ofDatum {news : List Counterpart} (d : Datum) :
    FollowsIn n (g.twins news) (Value.ofDatum d) (Value.ofDatum d) Value.Same := by
  have anchoring (kind : HandleKind) (r : Ref) :
      FollowsIn n (g.twins news) (Value.anchored kind r) (Value.anchored kind r) Value.Same := by
    refine (follows_anchored kind r r).weaken ?_
    rintro _ _ ⟨a, a', rfl, rfl⟩
    rfl
  cases d with
  | nil | bool | int | float | text => exact .pure fun _ _ twins => ⟨rfl, twins⟩
  | table r | function r | thread r | userdata r => exact anchoring _ r
  | failure => exact .throw fun _ _ => id

/-- A member of a table that the table gives by itself. -/
theorem follows_readMember (r : Ref) (key : Datum) :
    FollowsIn n (g.twins []) (runTask r.owner (.index (.table r) key))
      (runTask r.owner (.index (.table r) key)) fun data data' => data' = data := by
  intro w w' twins unscripted
  cases n with
  | zero =>
    exact .inr ⟨.failed BridgeError.tooDeep, w, w', rfl, rfl, twins⟩
  | succ k =>
    have raw : w.isRaw r key = true := (Unscripted.of_ask unscripted.of_bind).1
    unfold World.isRaw at raw
    split at raw
    · rename_i content metatable found
      have found' := twins.table_of_table found
      have reads {w : World} (found : w.cell? r = some (.table content metatable)) :
          (Script.runTask r.owner (.index (.table r) key)).straight w =
            some (.ok [content.get key], w) := by
        cases metatable with
        | none => exact Script.straight_readMember found key
        | some m =>
          refine Script.straight_readPresent found fun absent => ?_
          simp [absent, Datum.isNil] at raw
      exact .inl ⟨_, _, w, w', Action.runTo_runTask (reads found), Action.runTo_runTask (reads found'),
        rfl, twins⟩
    · cases raw

theorem follows_get (r : Ref) {key key' : Value} (same : key.Same key') :
    FollowsIn n (g.twins []) (TableOps.get r key) (TableOps.get r key') Value.Same :=
  follows_within ((follows_toDatum r.owner same).next_eq fun d =>
    (follows_readMember r d).next_eq fun _ => follows_ofDatum _)

theorem follows_items (r : Ref) :
    FollowsIn n (g.twins []) (HostType.items r) (HostType.items r) (List.Forall₂ HostValue.Same) := by
  have measured : FollowsIn n (g.twins []) (.operation r.owner (.view fun w => (w.tableAt r).length))
      (.operation r.owner (.view fun w => (w.tableAt r).length)) fun k k' => k' = k :=
    follows_within (.perform fun _ _ twins => ⟨congrArg Table.length (twins.tableAt r), twins⟩)
  refine measured.next_eq fun length => ?_
  refine .mapM_self _ fun k => ?_
  exact (follows_get r rfl).next fun v v' same => .pure fun _ _ twins =>
    ⟨congrArg HostValue.variant same, twins⟩

theorem follows_checkOpen {h h' : Handle} (same : h'.target = h.target) :
    FollowsIn n (g.twins []) h.checkOpen h'.checkOpen fun x x' => x' = x := by
  refine .view_eq (fun w w' twins => ?_) fun _ => follows_ofExcept
  unfold Handle.ensureOpen Handle.state
  rw [same, twins.isOpen]

/-- Values that are the same but for their anchors become host values that are. -/
theorem follows_fromValue (t : HostType) {v v' : Value} (same : v.Same v') :
    FollowsIn n (g.twins []) (t.fromValue v) (t.fromValue v') HostValue.Same := by
  have give {x : HostValue} : FollowsIn n (g.twins []) (pure x) (pure x) HostValue.Same :=
    .pure fun _ _ twins => ⟨rfl, twins⟩
  have isNil : v'.isNil = v.isNil := Value.congr_bare (fun _ _ _ => rfl) same
  have refuse (what : String) : HostType.expected what v' = HostType.expected what v :=
    Value.congr_bare (f := HostType.expected what) (fun _ _ _ => rfl) same
  cases t with
  | void => exact give
  | bool =>
    rcases Value.cases_of_bare same with rfl | ⟨kind, r, a, a', rfl, rfl⟩
    · cases v' <;> first | exact give | exact .throw fun _ _ => id
    · exact .throw fun _ _ => id
  | int =>
    have given : v'.toInteger = v.toInteger := Value.congr_bare (fun _ _ _ => rfl) same
    simp only [HostType.fromValue, given]
    exact follows_ofExcept.next_eq fun _ => give
  | double =>
    have given : v'.toNumber = v.toNumber := Value.congr_bare (fun _ _ _ => rfl) same
    simp only [HostType.fromValue, given]
    exact follows_ofExcept.next_eq fun _ => give
  | string =>
    have given : v'.toText = v.toText := Value.congr_bare (fun _ _ _ => rfl) same
    simp only [HostType.fromValue, given]
    exact follows_ofExcept.next_eq fun _ => give
  | object =>
    simp only [HostType.fromValue, isNil, refuse]
    split
    · exact give
    · refine .view_eq (fun _ _ twins => twins.hostObject? same) fun found => ?_
      cases found with
      | some o => exact give
      | none => exact .throw fun _ _ => id
  | native =>
    simp only [HostType.fromValue, isNil, refuse]
    split
    · exact give
    · refine .view_eq (fun _ _ twins => twins.nativeId? same) fun found => ?_
      cases found with
      | some o => exact give
      | none => exact .throw fun _ _ => id
  | list =>
    simp only [HostType.fromValue, refuse]
    rcases Value.cases_of_bare same with rfl | ⟨kind, r, a, a', rfl, rfl⟩
    · cases v'.ofKind? .table with
      | none => exact .throw fun _ _ => id
      | some h =>
        refine (follows_checkOpen rfl).next_eq fun _ => (follows_items h.target).next fun ys ys' same => ?_
        exact .pure fun _ _ twins =>
          ⟨congrArg HostValue.list (HostValue.forall₂_same.mp same), twins⟩
    · by_cases table : kind = .table
      · subst table
        refine (follows_checkOpen rfl).next_eq fun _ => (follows_items r).next fun ys ys' same => ?_
        exact .pure fun _ _ twins =>
          ⟨congrArg HostValue.list (HostValue.forall₂_same.mp same), twins⟩
      · simp only [Value.ofKind?, table, if_false]
        exact .throw fun _ _ => id
  | variant => exact .pure fun _ _ twins => ⟨congrArg HostValue.variant same, twins⟩

theorem follows_marshalArgs (params : List HostType) {args args' : List Value}
    (same : List.Forall₂ Value.Same args args') :
    FollowsIn n (g.twins []) (marshalArgs params args) (marshalArgs params args')
      (List.Forall₂ HostValue.Same) := by
  have pairs : List.Forall₂ (fun p p' : HostType × Value => p'.1 = p.1 ∧ p.2.Same p'.2)
      (params.zip args) (params.zip args') := by
    induction params generalizing args args' with
    | nil => exact .nil
    | cons t params ih =>
      cases same with
      | nil => exact .nil
      | cons first others => exact .cons ⟨rfl, first⟩ (ih others)
  refine Follows.mapM pairs ?_
  rintro ⟨t, v⟩ ⟨t', v'⟩ ⟨type, same⟩
  obtain rfl : t' = t := type
  exact follows_fromValue t' same

end Conversions

end ScriptBridge
