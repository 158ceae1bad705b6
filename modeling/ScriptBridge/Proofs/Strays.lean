import ScriptBridge.Proofs.Paths

/-!
What is left behind when a global cannot be written by its path. A path that is blocked leaves
nothing; a value that is refused is refused at the end of the path, when the tables that were missing
on it have been made.
-/

namespace ScriptBridge

open Script (Cell Datum Table)

/-- An operation whose body leaves the world as it has found it. -/
theorem Action.runTo_idle {α : Type} [Holding α] {n : Nat} {s : StateId} {a : Action α}
    {result : Except Fault α} {w : World}
    (inside : a.runTo n ((Scope.operation s).enter w) = (result, (Scope.operation s).enter w)) :
    ∃ w', (Action.operation s a).runTo n w = (result, w') ∧ w.SameScene w' := by
  obtain ⟨w', ends, left⟩ := Action.runTo_operation inside
  exact ⟨w', ends, (World.SameScene.enter s w).trans left⟩

namespace Value

variable {w : World} {h : Handle} {content : Table}

/-- A failure that scripts have caught does not come out of a table. -/
theorem runTo_index_caught (kind : h.kind = .table)
    (found : w.cell? h.target = some (.table content none)) {name : String} {failure : EngineError}
    (caught : content.get (.str name) = .failure failure) (n : Nat) :
    ∃ w', ((Value.handle h).index (.text name)).runTo (n + 1) w =
      (.error (.failed .caughtFailure), w') ∧ w.SameScene w' := by
  obtain ⟨e, engine⟩ := World.exists_engine_of_cell? found
  have isOpen : w.isOpen h.state := Option.isSome_iff_exists.mpr ⟨e, engine⟩
  rw [← (World.SameScene.enter h.target.owner w).cell?] at found
  simp only [index, kind]
  rw [Action.runTo_bind_ok (Action.runTo_straight (Action.straight_checkOpen isOpen))]
  refine Action.runTo_idle ?_
  rw [Action.runTo_bind_ok (Action.runTo_straight (straight_toDatum rfl)),
    Action.runTo_bind_ok (Action.runTo_runTask (Script.straight_readMember found _)), caught]
  exact Action.runTo_throw ..

/-- A value that is refused is not written. -/
theorem runTo_setIndex_refused (kind : h.kind = .table) (isOpen : w.isOpen h.state) (name : String)
    {v : Value} {refusal : BridgeError} (refused : v.datum w h.state = .error refusal) (n : Nat) :
    ∃ w', ((Value.handle h).setIndex (.text name) v).runTo n w =
      (.error (.failed refusal), w') ∧ w.SameScene w' := by
  have entered := World.SameScene.enter h.target.owner w
  have refused' : v.datum ((Scope.operation h.target.owner).enter w) h.target.owner =
      .error refusal := (datum_congr entered.stage.isOpen).trans refused
  simp only [setIndex, kind]
  rw [Action.runTo_bind_ok (Action.runTo_straight (Action.straight_checkOpen isOpen))]
  refine Action.runTo_idle ?_
  rw [Action.runTo_bind_ok (Action.runTo_straight (straight_toDatum rfl))]
  refine Action.runTo_bind_error ?_
  rw [toDatum, Action.runTo_view_bind, refused']
  exact Action.runTo_throw ..

/-- An engine that takes no task any more reads nothing. -/
theorem runTo_index_tooDeep (kind : h.kind = .table) (isOpen : w.isOpen h.state) (name : String) :
    ∃ w', ((Value.handle h).index (.text name)).runTo 0 w = (.error (.failed .tooDeep), w') ∧
      w.SameScene w' := by
  simp only [index, kind]
  rw [Action.runTo_bind_ok (Action.runTo_straight (Action.straight_checkOpen isOpen))]
  refine Action.runTo_idle ?_
  rw [Action.runTo_bind_ok (Action.runTo_straight (straight_toDatum rfl))]
  exact Action.runTo_bind_error rfl

theorem runTo_setIndex_tooDeep (kind : h.kind = .table) (isOpen : w.isOpen h.state) (name : String)
    (v : Value) : ∃ f w', ((Value.handle h).setIndex (.text name) v).runTo 0 w = (.error f, w') ∧
      w.SameScene w' := by
  cases made : v.datum w h.state with
  | error refusal =>
    obtain ⟨w', ends, same⟩ := runTo_setIndex_refused kind isOpen name made 0
    exact ⟨_, w', ends, same⟩
  | ok d =>
    have made' : v.datum ((Scope.operation h.target.owner).enter w) h.target.owner = .ok d :=
      (datum_congr (World.SameScene.enter h.target.owner w).stage.isOpen).trans made
    refine ⟨.failed .tooDeep, ?_⟩
    simp only [setIndex, kind]
    rw [Action.runTo_bind_ok (Action.runTo_straight (Action.straight_checkOpen isOpen))]
    refine Action.runTo_idle ?_
    rw [Action.runTo_bind_ok (Action.runTo_straight (straight_toDatum rfl)),
      Action.runTo_bind_ok (Action.runTo_straight (straight_toDatum made'))]
    exact Action.runTo_bind_error rfl

end Value

namespace World

variable {w w₁ w₂ w' : World} {s : StateId} {r r₁ : Ref} {name : String} {names rest : List String}
  {content : Table}

/-- The tables on a path from a table have no metatables. -/
def WithoutMetatables (w : World) (r : Ref) (names : List String) : Prop :=
  ∀ k, k < names.length → ∀ r', w.resolve (.table r) (names.take k) = .table r' →
    ∃ content, w.cell? r' = some (.table content none)

/-- All tables that a path from a table meets are tables of a state without metatables. -/
def Smooth (w : World) (s : StateId) (r : Ref) (names : List String) : Prop :=
  ∀ k, k ≤ names.length → ∀ r', w.resolve (.table r) (names.take k) = .table r' →
    r'.owner = s ∧ ∃ content, w.cell? r' = some (.table content none)

theorem WithoutMetatables.smooth {last : String} (bare : w.WithoutMetatables r (names ++ [last]))
    (isolated : w.Isolated) : w.Smooth r.owner r names := by
  intro k small r' leads
  have owned := isolated.resolve_owned (d := .table r) (s := r.owner) (by simp) (names.take k)
  rw [leads] at owned
  refine ⟨owned r' (by simp), bare k (by simpa using Nat.lt_succ_of_le small) r' ?_⟩
  rwa [List.take_append_of_le_length small]

theorem Smooth.congr (smooth : w.Smooth s r names) (same : w.SameScene w') :
    w'.Smooth s r names := by
  unfold Smooth
  rw [same.resolve, same.cells]
  exact smooth

/-- The rest of a path whose first name leads to a table. -/
theorem Smooth.tail (smooth : w.Smooth s r (name :: rest))
    (leads : w.member (.table r) name = .table r₁) : w.Smooth s r₁ rest := by
  intro k small
  have later := smooth (k + 1) (Nat.succ_le_succ small)
  rwa [List.take_succ_cons, resolve_cons, leads] at later

theorem Smooth.of_empty (found : w.cell? r = some (.table {} none)) (own : r.owner = s)
    (names : List String) : w.Smooth s r names := by
  intro k small r' leads
  cases k with
  | zero =>
    cases leads
    exact ⟨own, _, found⟩
  | succ k =>
    rw [resolve_empty found (take_ne_nil (Nat.succ_pos k) small)] at leads
    cases leads

/-- The tables that were missing on a path from a table have been made. -/
structure Grown (w w' : World) (r : Ref) (names : List String) : Prop where
  /-- One slot of the tables that were there is different: the one that held the first table that was
  missing. -/
  slot : ∃ k r' name content content', names[k]? = some name ∧
    w.resolve (.table r) (names.take k) = .table r' ∧ w.member (.table r') name = .nil ∧
    w.cell? r' = some (.table content none) ∧ w'.cell? r' = some (.table content' none) ∧
    (∀ key, key.toKey ≠ .str name → content'.get key = content.get key) ∧
    ∀ r'', r'' ≠ r' → w.cell? r'' ≠ none → w'.cell? r'' = w.cell? r''
  /-- What is new are tables on the path, each with nothing in it but its entry on the path. -/
  fresh : ∀ r', w.cell? r' = none → ∀ cell, w'.cell? r' = some cell →
    ∃ k content, k ≤ names.length ∧ w'.resolve (.table r) (names.take k) = .table r' ∧
      cell = .table content none ∧
      ∀ key, (∀ name, names[k]? = some name → key.toKey ≠ .str name) → content.get key = .nil
  /-- The path ends at a new table, and that one is empty. -/
  reached : ∃ r', w'.resolve (.table r) names = .table r' ∧ w.cell? r' = none ∧
    w'.cell? r' = some (.table {} none)

namespace Grown

theorem of_scene (same : w.SameScene w₁) (grown : w₁.Grown w' r names) : w.Grown w' r names where
  slot := by
    rw [← same.resolve, ← same.member, ← same.cells]
    exact grown.slot
  fresh := by
    rw [← same.cells]
    exact grown.fresh
  reached := by
    rw [← same.cells]
    exact grown.reached

theorem after (grown : w.Grown w₁ r names) (same : w₁.SameScene w') : w.Grown w' r names where
  slot := by
    rw [same.cells]
    exact grown.slot
  fresh := by
    rw [same.resolve, same.cells]
    exact grown.fresh
  reached := by
    rw [same.resolve, same.cells]
    exact grown.reached

/-- A path goes on behind a table that is there. -/
theorem through (found : w.cell? r = some (.table content none))
    (leads : w.member (.table r) name = .table r₁) (grown : w.Grown w' r₁ rest) :
    w.Grown w' r (name :: rest) := by
  obtain ⟨k, r', last, content₁, content', named, resolves, missing, found₁, there, same, others⟩ :=
    grown.slot
  -- Even if the slot is one of this table, it is not the one that the path goes through.
  have leads' : w'.member (.table r) name = .table r₁ := by
    by_cases here : r = r'
    · subst here
      have other : (Datum.str name).toKey ≠ .str last := by
        intro same
        rw [member_table found₁] at leads missing
        rw [show Datum.str name = .str last from same, missing] at leads
        cases leads
      rw [member_table there, same _ other, ← member_table found₁, leads]
    · rw [member_table (others r here (by simp [found]) ▸ found), ← member_table found, leads]
  refine ⟨⟨k + 1, r', last, content₁, content', named, ?_, missing, found₁, there, same, others⟩,
    fun x absent cell present => ?_, ?_⟩
  · rw [List.take_succ_cons, resolve_cons, leads]
    exact resolves
  · obtain ⟨k, content, small, resolves, shape⟩ := grown.fresh x absent cell present
    refine ⟨k + 1, content, Nat.succ_le_succ small, ?_, shape⟩
    rw [List.take_succ_cons, resolve_cons, leads']
    exact resolves
  · rw [resolve_cons, leads']
    exact grown.reached

/-- A table that was missing has been made and attached; if the path does not end there, it goes on
behind it. -/
theorem made (attaches : w.Attaches r content name r₁ w₂)
    (onward : (rest = [] ∧ w₂.SameScene w') ∨ w₂.Grown w' r₁ rest) :
    w.Grown w' r (name :: rest) := by
  -- Further on, nothing but what the new table holds can be different.
  have inside : ∃ inner, w'.cell? r₁ = some (.table inner none) ∧
      (∀ key, (∀ next, rest[0]? = some next → key.toKey ≠ .str next) → inner.get key = .nil) ∧
      ∀ x, x ≠ r₁ → w₂.cell? x ≠ none → w'.cell? x = w₂.cell? x := by
    rcases onward with ⟨rfl, scene⟩ | grown
    · exact ⟨{}, by rw [scene.cell?, attaches.empty], fun _ _ => rfl, fun x _ _ => scene.cell? x⟩
    · obtain ⟨k, r', last, before, after, named, resolves, -, start, there, same, others⟩ :=
        grown.slot
      have small : k ≤ rest.length := (List.getElem?_eq_some_iff.mp named).1.le
      obtain rfl | absent := attaches.resolve_take small
      case inr =>
        rw [absent] at resolves
        cases resolves
      cases resolves
      cases attaches.empty.symm.trans start
      exact ⟨after, there, fun key other => same key (other last named), others⟩
  obtain ⟨inner, there, vacant, others⟩ := inside
  have leads := attaches.leads others
  refine ⟨⟨0, r, name, content, _, rfl, rfl, attaches.missing, attaches.found,
    attaches.kept others, fun _ other => (Script.Table.get_set ..).trans (if_neg other),
    fun _ => attaches.elsewhere others⟩, fun x absent cell present => ?_, ?_⟩
  · by_cases new : x = r₁
    · subst new
      cases there.symm.trans present
      exact ⟨1, inner, by simp, by simpa using leads, rfl, vacant⟩
    have absent₂ := (attaches.others x (attaches.other_of_absent absent) new).trans absent
    rcases onward with ⟨-, scene⟩ | grown
    · rw [scene.cell?, absent₂] at present
      cases present
    · obtain ⟨k, content, small, resolves, shape⟩ := grown.fresh x absent₂ cell present
      refine ⟨k + 1, content, Nat.succ_le_succ small, ?_, shape⟩
      rw [List.take_succ_cons, resolve_cons, leads]
      exact resolves
  · rw [resolve_cons, leads]
    rcases onward with ⟨rfl, scene⟩ | grown
    · exact ⟨r₁, rfl, attaches.free, by rw [scene.cell?, attaches.empty]⟩
    · obtain ⟨x, resolves, absent, vacant⟩ := grown.reached
      have old : x ≠ r := by
        rintro rfl
        cases absent.symm.trans attaches.attached
      have new : x ≠ r₁ := by
        rintro rfl
        cases absent.symm.trans attaches.empty
      exact ⟨x, resolves, by rwa [← attaches.others x old new], vacant⟩

end Grown

end World

namespace State

/-- What going along a path from a table comes to when tables that are missing are made. -/
inductive Goes (s : StateId) (path : String) (before names : List String) (r : Ref) (n : Nat)
    (w : World) : Except Fault Value × World → Prop where
  | stopped {f : Fault} {k : Nat} {w' : World} (small : k ≤ names.length)
    (blocks : (w.resolve (.table r) (names.take k)).Blocks) (scene : w.SameScene w') :
    Goes s path before names r n w (.error f, w')
  /-- The path leads to a table, and tables may have been made on the way. -/
  | arrived {r' : Ref} {a : AnchorId} {content : Table} {w' : World} (own : r'.owner = s)
    (found : w'.cell? r' = some (.table content none)) (stage : w.SameStage w')
    (changed : (w.resolve (.table r) names = .table r' ∧ w.SameScene w') ∨ w.Grown w' r names) :
    Goes s path before names r n w (.ok (.handle ⟨.table, r', a⟩), w')
  /-- What comes of a userdata on the path is a matter of that. -/
  | userdata {k : Nat} {u : Ref} {a : AnchorId} {w₁ : World} (small : k ≤ names.length)
    (leads : w.resolve (.table r) (names.take k) = .userdata u) (scene : w.SameScene w₁) :
    Goes s path before names r n w ((makeWay s path (before ++ names.take k)
      (.handle ⟨.userdata, u, a⟩) (names.drop k)).runTo n w₁)

theorem eq_userdata_of_bare {v : Value} {u : Ref}
    (shown : (Datum.userdata u).asValue = some v.bare) : ∃ a, v = .handle ⟨.userdata, u, a⟩ := by
  cases v with
  | handle h =>
    obtain ⟨kind, target, a⟩ := h
    simp only [Datum.asValue, Value.bare, Option.some.injEq, Value.handle.injEq, Handle.mk.injEq]
      at shown
    exact ⟨a, by rw [← shown.1, ← shown.2.1]⟩
  | _ => simp [Datum.asValue, Value.bare] at shown

namespace Goes

variable {s : StateId} {path name : String} {before rest : List String} {r r₁ : Ref} {n : Nat}
  {w w₁ w₂ w₃ : World} {content : Table} {ended : Except Fault Value × World}

/-- A path goes on behind a table that is there. -/
theorem through (found : w.cell? r = some (.table content none))
    (leads : w.member (.table r) name = .table r₁) (scene : w.SameScene w₁)
    (onward : Goes s path (before ++ [name]) rest r₁ n w₁ ended) :
    Goes s path before (name :: rest) r n w ended := by
  have resolves (names : List String) :
      w.resolve (.table r) (name :: names) = w₁.resolve (.table r₁) names := by
    rw [scene.resolve, ← leads]
    rfl
  cases onward with
  | stopped small blocks scene' =>
    exact .stopped (Nat.succ_le_succ small) (by rwa [List.take_succ_cons, resolves])
      (scene.trans scene')
  | arrived own there stage changed =>
    refine .arrived own there (scene.stage.trans stage) ?_
    rcases changed with ⟨leads', scene'⟩ | grown
    · exact .inl ⟨by rw [resolves, leads'], scene.trans scene'⟩
    · exact .inr (.through found leads (grown.of_scene scene))
  | @userdata k u a w₁ small leads' scene' =>
    have goes : Goes s path before (name :: rest) r n w
        ((makeWay s path (before ++ (name :: rest).take (k + 1)) (.handle ⟨.userdata, u, a⟩)
          ((name :: rest).drop (k + 1))).runTo n w₁) :=
      .userdata (Nat.succ_le_succ small) (by rw [List.take_succ_cons, resolves, leads'])
        (scene.trans scene')
    simpa using goes

/-- A path goes on behind a table that was missing and has been made. -/
theorem made (attaches : w.Attaches r content name r₁ w₂)
    (onward : Goes s path (before ++ [name]) rest r₁ n w₂ ended) :
    Goes s path before (name :: rest) r n w ended := by
  cases onward with
  | stopped small blocks =>
    rcases attaches.resolve_take small with rfl | absent
    · exact absurd blocks (table_passable r₁)
    · rw [absent] at blocks
      exact absurd blocks nil_passable
  | arrived own there stage changed =>
    refine .arrived own there (attaches.stage.trans stage) (.inr (.made attaches ?_))
    refine changed.imp_left fun ⟨leads, scene⟩ => ⟨?_, scene⟩
    by_contra more
    rw [World.resolve_empty attaches.empty more] at leads
    cases leads
  | userdata small leads =>
    rcases attaches.resolve_take small with rfl | absent
    · cases leads
    · rw [absent] at leads
      cases leads

end Goes

/-- Going along a path through tables without metatables. -/
theorem goes_makeWay {s : StateId} (path : String) (before names : List String) {n : Nat} {w : World}
    {r : Ref} {a : AnchorId} (isOpen : w.isOpen s) (smooth : w.Smooth s r names) :
    Goes s path before names r (n + 1) w
      ((makeWay s path before (.handle ⟨.table, r, a⟩) names).runTo (n + 1) w) := by
  induction names generalizing w r a before with
  | nil =>
    obtain ⟨own, content, found⟩ := smooth 0 (Nat.zero_le _) r rfl
    exact .arrived own found (fun _ => rfl) (.inl ⟨rfl, .refl w⟩)
  | cons name rest ih =>
    obtain ⟨own, content, found⟩ := smooth 0 (Nat.zero_le _) r rfl
    have leads := World.member_table found name
    have resolves : w.resolve (.table r) ((name :: rest).take 1) = content.get (.str name) := leads
    rw [makeWay]
    obtain ⟨failure, caught⟩ | plain : (∃ failure, content.get (.str name) = .failure failure) ∨
        ∃ v, (content.get (.str name)).asValue = some v := by
      cases content.get (.str name) with
      | failure failure => exact .inl ⟨failure, rfl⟩
      | _ => exact .inr ⟨_, rfl⟩
    · obtain ⟨w₁, reads, scene⟩ :=
        Value.runTo_index_caught (h := ⟨.table, r, a⟩) rfl found caught n
      rw [Action.runTo_bind_error reads]
      refine .stopped (k := 1) (by simp) ?_ scene
      rw [resolves, caught]
      exact ⟨by simp, by simp⟩
    obtain ⟨shown, shows⟩ := plain
    obtain ⟨next, w₁, reads, same, scene⟩ :=
      Value.runTo_index (h := ⟨.table, r, a⟩) rfl found name shows n
    rw [← same] at shows
    have isOpen₁ : w₁.isOpen s := by rwa [scene.stage.isOpen]
    rw [Action.runTo_bind_ok reads]
    by_cases missing : content.get (.str name) = .nil
    · rw [missing] at leads shows
      obtain rfl := eq_nil_of_bare shows
      obtain ⟨r₁, a₁, w₂, goes, own₁, attaches⟩ := runTo_attach (a := a) own isOpen₁
        (by rwa [scene.cell?]) (by rwa [scene.member]) n
      simp only [Value.isNil, if_true]
      rw [goes]
      exact .made (attaches.before scene)
        (ih _ (by rwa [attaches.stage.isOpen]) (.of_empty attaches.empty own₁ rest))
    by_cases table : ∃ r₁, content.get (.str name) = .table r₁
    · obtain ⟨r₁, table⟩ := table
      rw [table] at leads shows
      obtain ⟨a₁, rfl⟩ := eq_handle_of_bare shows
      exact .through found leads scene (ih _ isOpen₁ ((smooth.tail leads).congr scene))
    by_cases userdata : ∃ u, content.get (.str name) = .userdata u
    · obtain ⟨u, userdata⟩ := userdata
      rw [userdata] at resolves shows
      obtain ⟨a₁, rfl⟩ := eq_userdata_of_bare shows
      exact .userdata (k := 1) (by simp) resolves scene
    · have blocks : (content.get (.str name)).Blocks :=
        ⟨missing, fun r₁ is => table ⟨r₁, is⟩⟩
      have other : (content.get (.str name)).typeName ≠ "userdata" := by
        cases d : content.get (.str name) with
        | userdata u => exact absurd ⟨u, d⟩ userdata
        | failure => rw [d] at shows; cases shows
        | _ => simp [Datum.typeName]
      obtain ⟨isNil, indexable, -⟩ := of_blocks blocks other shows
      rw [isNil, indexable]
      simp only [Bool.false_eq_true, if_false]
      rw [Action.runTo_throw]
      exact .stopped (k := 1) (by simp) (by rwa [resolves]) scene

/-- What writing a global by its path does from a value that the path has led to. -/
def writeFrom (s : StateId) (path : String) (before : List String) (current : Value)
    (names : List String) (v : Value) : Action Unit := do
  let table ← makeWay s path before current names.dropLast
  table.setIndex (.text (names.getLastD "")) v

section Failing

variable {s : StateId} {path : String} {names : List String} {v : Value} {n : Nat} {r : Ref}
  {a : AnchorId} {w w' : World} {f : Fault}

/-- What is left behind when writing along a path fails: nothing; or the tables that were missing on
the path, if the value is refused; or, if the path meets a userdata, what has come of that. -/
inductive Leaves (s : StateId) (path : String) (names : List String) (v : Value) (r : Ref) (n : Nat)
    (w : World) (f : Fault) (w' : World) : Prop where
  | nothing (same : w'.cell? = w.cell?)
  | tables {refusal : BridgeError} (refused : v.datum w s = .error refusal)
    (failure : f = .failed refusal) (grown : w.Grown w' r names.dropLast)
  | userdata {k : Nat} {u : Ref} {a : AnchorId} {w₁ w₂ : World} (small : k < names.length)
    (leads : w.resolve (.table r) (names.take k) = .userdata u) (before : w₁.cell? = w.cell?)
    (goes : (writeFrom s path (names.take k) (.handle ⟨.userdata, u, a⟩) (names.drop k) v).runTo n
      w₁ = (.error f, w₂))
    (after : w'.cell? = w₂.cell?)

/-- Scenes that are the same before and after make no difference. -/
theorem Leaves.of_scene {w₁ w₂ : World} (entered : w.SameScene w₁)
    (leaves : Leaves s path names v r n w₁ f w₂) (left : w₂.SameScene w') :
    Leaves s path names v r n w f w' := by
  cases leaves with
  | nothing same => exact .nothing (left.cells.trans (same.trans entered.cells))
  | tables refused failure grown =>
    rw [Value.datum_congr entered.stage.isOpen] at refused
    exact .tables refused failure ((grown.of_scene entered).after left)
  | userdata small leads before goes after =>
    rw [entered.resolve] at leads
    exact .userdata small leads (before.trans entered.cells) goes (left.cells.trans after)

/-- An engine that takes no task any more has been asked before anything is made. -/
theorem leaves_tooDeep (own : r.owner = s) (isOpen : w.isOpen s)
    (failed : (writeFrom s path [] (.handle ⟨.table, r, a⟩) names v).runTo 0 w = (.error f, w')) :
    Leaves s path names v r 0 w f w' := by
  have isOpen : w.isOpen (Handle.mk .table r a).state := by rwa [← own] at isOpen
  unfold writeFrom at failed
  cases way : names.dropLast with
  | nil =>
    obtain ⟨_, _, ends, scene⟩ := Value.runTo_setIndex_tooDeep rfl isOpen (names.getLastD "") v
    rw [way, makeWay, pure_bind, ends] at failed
    cases failed
    exact .nothing scene.cells
  | cons name rest =>
    obtain ⟨_, ends, scene⟩ := Value.runTo_index_tooDeep rfl isOpen name
    rw [way, makeWay, bind_assoc, Action.runTo_bind_error ends] at failed
    cases failed
    exact .nothing scene.cells

theorem leaves_writeFrom (some : names ≠ []) (isOpen : w.isOpen s)
    (smooth : w.Smooth s r names.dropLast)
    (failed : (writeFrom s path [] (.handle ⟨.table, r, a⟩) names v).runTo (n + 1) w =
      (.error f, w')) : Leaves s path names v r (n + 1) w f w' := by
  have goes := goes_makeWay (a := a) (n := n) path [] names.dropLast isOpen smooth
  unfold writeFrom at failed
  rw [Action.runTo_bind] at failed
  generalize ended : (makeWay s path [] (.handle ⟨.table, r, a⟩) names.dropLast).runTo (n + 1) w =
    outcome at goes failed
  cases goes with
  | stopped small blocks scene =>
    cases failed
    exact .nothing scene.cells
  | @arrived r' a' content w₁ own found stage changed =>
    dsimp only at failed
    subst own
    have same : v.datum w₁ r'.owner = v.datum w r'.owner := Value.datum_congr stage.isOpen
    cases made : v.datum w r'.owner with
    | ok d =>
      obtain ⟨_, ends, -⟩ := Value.runTo_setIndex (h := ⟨.table, r', a'⟩) rfl found
        (names.getLastD "") (same.trans made) n
      rw [ends] at failed
      cases failed
    | error refusal =>
      have isOpen₁ : w₁.isOpen (Handle.mk .table r' a').state := by rwa [stage.isOpen]
      obtain ⟨_, ends, scene⟩ := Value.runTo_setIndex_refused (h := ⟨.table, r', a'⟩) rfl isOpen₁
        (names.getLastD "") (same.trans made) (n + 1)
      rw [ends] at failed
      cases failed
      rcases changed with ⟨-, scene'⟩ | grown
      · exact .nothing (scene'.trans scene).cells
      · exact .tables made rfl (grown.after scene)
  | @userdata k u a' w₁ small leads scene =>
    obtain ⟨parents, last, rfl⟩ : ∃ parents last, names = parents ++ [last] :=
      ⟨_, _, (dropLast_getLastD some).symm⟩
    rw [List.dropLast_concat] at small leads ended failed
    have before : (parents ++ [last]).take k = parents.take k := List.take_append_of_le_length small
    have rest : (parents ++ [last]).drop k = parents.drop k ++ [last] :=
      List.drop_append_of_le_length small
    refine .userdata (k := k) (a := a') (by simpa using Nat.lt_succ_of_le small) (by rwa [before]) scene.cells
      ?_ rfl
    unfold writeFrom
    rw [before, rest, List.dropLast_concat, Action.runTo_bind]
    simpa using failed

/-- If a global cannot be written by its path, and no table on the path has a metatable, nothing has
changed; but if the value is refused, the tables that were missing on the path have been made and
attached, and nothing else has changed. A userdata on the path does what it does; nothing has changed
before it is asked. -/
theorem set_failing (isolated : w.Isolated)
    (bare : ∀ e names, w.engine? s = some e → segments path = .ok names →
      w.WithoutMetatables e.globals names)
    (failed : (set s path v).runTo n w = (.error f, w')) :
    w'.cell? = w.cell? ∨ ∃ e names, w.engine? s = some e ∧ segments path = .ok names ∧
      Leaves s path names v e.globals n w f w' := by
  have entered := World.SameScene.enter s w
  generalize inside : (do
      let parts ← Action.ofExcept (segments path)
      writeFrom s path [] (← globals s) parts v : Action Unit).runTo n
        ((Scope.operation s).enter w) = ended
  obtain ⟨result, w₁⟩ := ended
  obtain ⟨w₂, ends, left⟩ := Action.runTo_operation inside
  cases failed.symm.trans ends
  cases formed : segments path with
  | error e =>
    rw [formed] at inside
    cases (Action.runTo_throw ..).symm.trans inside
    exact .inl (entered.trans left).cells
  | ok names =>
    rw [formed] at inside
    cases engine : w.engine? s with
    | none =>
      have closed : ((Scope.operation s).enter w).engine? s = none := by
        simpa [engine] using entered.stage s
      obtain ⟨w₃, ends, scene⟩ : ∃ w₃, (globals s).runTo n ((Scope.operation s).enter w) =
          (.error (.failed .stateClosed), w₃) ∧ ((Scope.operation s).enter w).SameScene w₃ := by
        refine Action.runTo_idle ?_
        rw [Action.runTo_view_bind, show World.engine? _ s = none by
          simpa [closed] using (World.SameScene.enter s ((Scope.operation s).enter w)).stage s]
        exact Action.runTo_throw ..
      cases (Action.runTo_bind_error ends).symm.trans inside
      exact .inl ((entered.trans scene).trans left).cells
    | some e =>
      refine .inr ⟨e, names, rfl, rfl, ?_⟩
      have own : e.globals.owner = s := World.Isolated.globals isolated engine
      have isOpen : w.isOpen s := by simp [World.isOpen, engine]
      obtain ⟨e', engine', same, -⟩ := entered.stage.engine engine
      obtain ⟨a, w₃, begins, scene⟩ := runTo_globals engine' n
      rw [same] at begins
      replace scene := entered.trans scene
      replace inside := (Action.runTo_bind_ok begins).symm.trans inside
      have isOpen₃ : w₃.isOpen s := by rwa [scene.stage.isOpen]
      refine .of_scene scene ?_ left
      cases n with
      | zero => exact leaves_tooDeep own isOpen₃ inside
      | succ n =>
        have some := names_ne_nil formed
        have plain : w.WithoutMetatables e.globals (names.dropLast ++ [names.getLastD ""]) := by
          rw [dropLast_getLastD some]
          exact bare e names engine formed
        have smooth : w.Smooth s e.globals names.dropLast := own ▸ plain.smooth isolated
        exact leaves_writeFrom some isOpen₃ (smooth.congr scene) inside

end Failing

/-- A value of a state that is closed is refused when its path has been made. -/
theorem set_failing_stranded : ∃ w',
    (set 0 "levels.high" (.handle ⟨.table, ⟨5, 0⟩, 0⟩)).run configured =
      (.error (.failed .stateClosed), w') ∧
    Leaves 0 "levels.high" ["levels", "high"] (.handle ⟨.table, ⟨5, 0⟩, 0⟩) ⟨0, 0⟩ 200 configured
      (.failed .stateClosed) w' ∧
    configured.resolve (.table ⟨0, 0⟩) ["levels"] = .nil ∧
    w'.resolve (.table ⟨0, 0⟩) ["levels"] = .table ⟨0, 3⟩ := by
  obtain ⟨e, engine, globals⟩ : ∃ e, configured.engine? 0 = some e ∧ e.globals = ⟨0, 0⟩ :=
    ⟨_, rfl, rfl⟩
  have formed : segments "levels.high" = .ok ["levels", "high"] := rfl
  have missing : configured.resolve (.table ⟨0, 0⟩) ["levels"] = .nil := by
    simp [configured.member_globals]
  have bare : ∀ e' names, configured.engine? 0 = some e' → segments "levels.high" = .ok names →
      configured.WithoutMetatables e'.globals names := by
    intro e' names engine' formed' k small r' leads
    cases engine.symm.trans engine'
    cases formed.symm.trans formed'
    rw [globals] at leads
    match k, small with
    | 0, _ =>
      cases leads
      exact ⟨_, rfl⟩
    | 1, _ => cases missing.symm.trans leads
  obtain ⟨fails, changed⟩ :
      ((set 0 "levels.high" (.handle ⟨.table, ⟨5, 0⟩, 0⟩)).runTo 200 configured).1 =
        .error (.failed .stateClosed) ∧
      ((set 0 "levels.high" (.handle ⟨.table, ⟨5, 0⟩, 0⟩)).runTo 200 configured).2.resolve
        (.table ⟨0, 0⟩) ["levels"] = .table ⟨0, 3⟩ := by decide +kernel
  generalize ended : (set 0 "levels.high" (.handle ⟨.table, ⟨5, 0⟩, 0⟩)).runTo 200 configured =
    outcome at fails changed
  obtain ⟨result, w'⟩ := outcome
  cases fails
  refine ⟨w', ended, ?_, missing, changed⟩
  rcases set_failing configured.isolated bare ended with same | ⟨e', names, engine', formed', leaves⟩
  · have still : w'.resolve (.table ⟨0, 0⟩) ["levels"] = .nil := by
      rw [← missing]
      simp only [World.resolve, List.foldl, World.member, World.tableAt, same]
    cases still.symm.trans changed
  · cases engine.symm.trans engine'
    cases formed.symm.trans formed'
    rwa [globals] at leaves

end State

end ScriptBridge
