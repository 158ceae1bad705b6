import ScriptBridge.Proofs.Mirrors

/-!
Worlds beside each other: a script that goes about its own business, in one coroutine, leaves the world
as it is but for the books of engines, the native functions that wait in that coroutine, and variables
of its own.
-/

namespace ScriptBridge

open Script (Cell Thread)

namespace World

/-- Places of a heap that have not been taken yet. -/
def Fresh (w : World) (r : Ref) : Prop := ∀ e, w.engine? r.owner = some e → e.heap.next ≤ r.index

/-- What a script that runs in a coroutine may have made of one place of a heap. -/
inductive Spared (thread : Ref) (w w' : World) (r : Ref) : Prop where
  | same (same : w'.cell? r = w.cell? r)
  | waits (here : r = thread) (quiet : (w'.cell? r).map Cell.quiet = (w.cell? r).map Cell.quiet)
  | declared {d : Script.Datum} (fresh : w.Fresh r) (made : w'.cell? r = some (.variable d))

structure Beside (thread : Ref) (w w' : World) : Prop where
  outside : w'.outside = w.outside
  next : w'.engines.next = w.engines.next
  engines : ∀ s, (w'.engine? s).map Engine.quiet = (w.engine? s).map Engine.quiet
  grows : ∀ r, w'.Fresh r → w.Fresh r
  cells : ∀ r, w.Spared thread w' r

variable {thread : Ref} {w w₁ w' : World}

theorem Fresh.cell? {r : Ref} (fresh : w.Fresh r) : w.cell? r = none := by
  unfold World.cell?
  cases engine : w.engine? r.owner with
  | none => rfl
  | some e => exact e.heap.get?_of_next_le (fresh e engine)

/-- Heaps that have the same content have the same free places. -/
theorem Alike.fresh (alike : w.Alike w') {r : Ref} : w'.Fresh r ↔ w.Fresh r := by
  have half {w w' : World} (alike : w.Alike w') (fresh : w.Fresh r) : w'.Fresh r := by
    intro e' engine'
    obtain ⟨e, engine, heap, -⟩ := alike.symm.engine engine'
    rw [← heap]
    exact fresh e engine
  exact ⟨half alike.symm, half alike⟩

/-- The place of a new cell was free. -/
theorem fresh_allocate (w : World) (s : StateId) (cell : Cell) : w.Fresh (w.allocate s cell).1 := by
  intro e engine
  have here : w.engine? s = some e := engine
  simp [World.allocate, here]

theorem cell?_allocate_of_ne {s : StateId} {cell : Cell} {r : Ref} (other : r ≠ (w.allocate s cell).1) :
    (w.allocate s cell).2.cell? r = w.cell? r := by
  simp only [World.allocate] at other ⊢
  simp only [World.cell?, engine?_modifyEngine]
  split
  · rename_i own
    subst own
    cases engine : w.engine? r.owner with
    | none => rfl
    | some e =>
      have apart : r.index ≠ e.heap.next := by
        intro same
        exact other (by simp [engine, ← same])
      simp [Store.get?_add, apart]
  · rfl

/-- Heaps only grow. -/
theorem Fresh.of_modifyEngine {s : StateId} {f : Engine → Engine}
    (grows : ∀ e, e.heap.next ≤ (f e).heap.next) {r : Ref} (fresh : (w.modifyEngine s f).Fresh r) :
    w.Fresh r := by
  intro e engine
  by_cases own : s = r.owner
  · exact Nat.le_trans (grows e) (fresh (f e) (by simp [engine?_modifyEngine, own, engine]))
  · exact fresh e (by simp [engine?_modifyEngine, own, engine])

theorem Fresh.of_allocate {s : StateId} {cell : Cell} {r : Ref}
    (fresh : (w.allocate s cell).2.Fresh r) : w.Fresh r :=
  fresh.of_modifyEngine fun e => by simp

theorem Fresh.of_write {r' : Ref} {cell : Cell} {r : Ref} (fresh : (w.write r' cell).Fresh r) :
    w.Fresh r :=
  fresh.of_modifyEngine fun e => by simp

namespace Spared

variable {r : Ref}

/-- What a script has made of a place is a matter of what is there. -/
theorem congr (spared : w.Spared thread w₁ r) (same : w'.cell? r = w₁.cell? r) :
    w.Spared thread w' r := by
  cases spared with
  | same equal => exact .same (same.trans equal)
  | waits here quiet => exact .waits here (by rw [same, quiet])
  | declared fresh made => exact .declared fresh (same.trans made)

theorem onward (spared : w.Spared thread w₁ r) (later : w₁.Spared thread w' r)
    (grows : w₁.Fresh r → w.Fresh r) : w.Spared thread w' r := by
  cases later with
  | same same => exact spared.congr same
  | waits here quiet =>
    cases spared with
    | same same => exact .waits here (same ▸ quiet)
    | waits _ quiet' => exact .waits here (quiet.trans quiet')
    | @declared d fresh made =>
      rw [made] at quiet
      obtain ⟨c, found, same⟩ := Option.map_eq_some_iff.mp quiet
      have same : c = .variable d := by
        cases c <;> cases same
        rfl
      exact .declared fresh (same ▸ found)
  | declared fresh made => exact .declared (grows fresh) made

end Spared

namespace Beside

theorem refl (thread : Ref) (w : World) : w.Beside thread w :=
  ⟨rfl, rfl, fun _ => rfl, fun _ => id, fun _ => .same rfl⟩

theorem trans (first : w.Beside thread w₁) (second : w₁.Beside thread w') : w.Beside thread w' where
  outside := second.outside.trans first.outside
  next := second.next.trans first.next
  engines s := (second.engines s).trans (first.engines s)
  grows r fresh := first.grows r (second.grows r fresh)
  cells r := (first.cells r).onward (second.cells r) (first.grows r)

theorem mirrors (beside : w.Beside thread w') : w.Mirrors w' where
  outside := beside.outside
  next := beside.next
  engines := beside.engines
  cells r c found := by
    rcases beside.cells r with same | ⟨-, quiet⟩ | ⟨fresh, -⟩
    · rw [same, found]
      rfl
    · rw [quiet, found]
      rfl
    · rw [fresh.cell?] at found
      cases found

/-- Nothing but books of engines is different. -/
theorem of_alike (mirrors : w.Mirrors w') (alike : w.Alike w') : w.Beside thread w' :=
  ⟨mirrors.outside, mirrors.next, mirrors.engines, fun _ => alike.fresh.mp, fun r => .same (alike.cell? r)⟩

theorem takePlace (w : World) (s : StateId) : w.Beside thread (w.takePlace s).2 := by
  refine of_alike (.takePlace w s) ?_
  unfold World.takePlace
  split
  · split
    · exact .modifyEngine w s fun _ => rfl
    · exact .refl w
  · exact .refl w

theorem givePlace (w : World) (s : StateId) : w.Beside thread ((Op.givePlace s).apply w).2 :=
  of_alike (.givePlace w s) (.modifyEngine w s fun _ => rfl)

theorem openScope (w : World) : w.Beside thread w.openScope :=
  of_alike (.openScope w) ⟨rfl, rfl, fun _ => rfl⟩

theorem closeScope (w : World) (result : List Handle) : w.Beside thread (w.closeScope result) :=
  of_alike (.closeScope w result) (.closeScope w result)

theorem allocate (w : World) {s : StateId} (isOpen : w.isOpen s) (d : Script.Datum) :
    w.Beside thread (w.allocate s (.variable d)).2 where
  outside := rfl
  next := (Mirrors.allocate w s _).next
  engines := (Mirrors.allocate w s _).engines
  grows _ := Fresh.of_allocate
  cells r := by
    by_cases new : r = (w.allocate s (.variable d)).1
    · subst new
      exact .declared (fresh_allocate w s _) (cell?_allocate isOpen _)
    · exact .same (cell?_allocate_of_ne new)

/-- Which native functions wait in the coroutine is a matter of books. -/
theorem changeThread (w : World) {f : Thread → Thread}
    (same : ∀ t, { f t with waiting := [] } = { t with waiting := [] }) :
    w.Beside thread (w.changeThread thread f) where
  outside := (Mirrors.changeThread w thread same).outside
  next := (Mirrors.changeThread w thread same).next
  engines := (Mirrors.changeThread w thread same).engines
  grows r fresh := by
    unfold World.changeThread at fresh
    split at fresh
    · exact fresh.of_write
    · exact fresh
  cells r := by
    by_cases here : r = thread
    · subst here
      refine .waits rfl ?_
      cases found : w.cell? r with
      | none =>
        unfold World.changeThread World.thread?
        simp [found]
      | some c => exact (Mirrors.changeThread w r same).cells r c found
    · refine .same ?_
      unfold World.changeThread
      split
      · rw [cell?_write, if_neg here]
      · rfl

/-- The same change of what two engines have in common. -/
theorem congr_modifyEngine (beside : w.Beside thread w') (s : StateId) {f : Engine → Engine}
    (quiet : ∀ e, (f e).quiet = f e.quiet) (content : ∀ e, (f e).content = e.content) :
    (w.modifyEngine s f).Beside thread (w'.modifyEngine s f) := by
  have mirrors := beside.mirrors.congr_modifyEngine s quiet fun e => congrArg Prod.fst (content e)
  have alike (w : World) : w.Alike (w.modifyEngine s f) := .modifyEngine w s content
  refine ⟨mirrors.outside, mirrors.next, mirrors.engines, fun r fresh => ?_, fun r => ?_⟩
  · exact (alike w).fresh.mpr (beside.grows r ((alike w').fresh.mp fresh))
  · rcases beside.cells r with same | ⟨here, quiet⟩ | ⟨fresh, made⟩
    · exact .same (by rw [(alike w).cell?, (alike w').cell?, same])
    · exact .waits here (by rw [(alike w).cell?, (alike w').cell?, quiet])
    · exact .declared ((alike w).fresh.mpr fresh) (((alike w').cell? r).trans made)

/-- Worlds are still beside each other after an operation of the bridge. -/
theorem exit (beside : w.Beside thread w') (s : StateId) (result result' : List Handle) :
    ((Scope.operation s).exit result w).Beside thread ((Scope.operation s).exit result' w') := by
  have alike := Alike.closeScope w result
  have back : (w.closeScope result).Beside thread w :=
    of_alike ((Mirrors.closeScope w result).symm alike.cell?) alike.symm
  exact congr_modifyEngine (f := fun e => { e with depth := e.depth - 1 })
    (back.trans (beside.trans (closeScope w' result'))) s (fun _ => rfl) fun _ => rfl

end Beside

end World

end ScriptBridge
