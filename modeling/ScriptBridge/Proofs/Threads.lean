import ScriptBridge.Proofs.Alike
import ScriptBridge.Proofs.Ends

/-!
What changes of a world do to its coroutines.
-/

namespace ScriptBridge

open Script (Cell Thread updateThread)

namespace World

/-- The world after a coroutine has been changed, if there is one. -/
def changeThread (w : World) (r : Ref) (f : Thread → Thread) : World :=
  match w.thread? r with
  | some t => w.write r (.thread (f t))
  | none => w

variable {w : World}

theorem cell?_write (w : World) (r : Ref) (cell : Cell) (r' : Ref) :
    (w.write r cell).cell? r' =
      if r' = r then (w.cell? r).map fun old => if old.isLike cell then cell else old
      else w.cell? r' := by
  unfold write cell?
  simp only [Option.bind_eq_bind, engine?_modifyEngine]
  by_cases owner : r'.owner = r.owner
  · cases engine : w.engine? r.owner with
    | none => simp [owner, engine]
    | some e =>
      simp only [owner, engine, if_true, Option.map_some, Option.bind_some, Store.get?_modify]
      by_cases index : r.index = r'.index
      · have same : r' = r := by
          cases r
          cases r'
          simp_all
        simp [same]
      · have other : r' ≠ r := fun same => index (same ▸ rfl)
        simp [index, other]
  · have other : r' ≠ r := fun same => owner (same ▸ rfl)
    have owner' : r.owner ≠ r'.owner := fun same => owner same.symm
    simp [owner', other]

theorem thread?_eq_some {r : Ref} {t : Thread} :
    w.thread? r = some t ↔ w.cell? r = some (.thread t) := by
  unfold thread?
  cases w.cell? r with
  | none => simp
  | some cell => cases cell <;> simp

theorem thread?_write {r : Ref} {t : Thread} (there : w.thread? r = some t) (t' : Thread)
    (r' : Ref) :
    (w.write r (.thread t')).thread? r' = if r' = r then some t' else w.thread? r' := by
  by_cases same : r' = r
  · rw [if_pos same, thread?_eq_some, cell?_write, if_pos same, thread?_eq_some.mp there]
    rfl
  · unfold thread?
    rw [cell?_write, if_neg same, if_neg same]

theorem thread?_changeThread (w : World) (r : Ref) (f : Thread → Thread) (r' : Ref) :
    (w.changeThread r f).thread? r' = if r' = r then (w.thread? r).map f else w.thread? r' := by
  cases there : w.thread? r with
  | none =>
    by_cases same : r' = r <;> simp [changeThread, there, same]
  | some t =>
    simp only [changeThread, there]
    exact thread?_write there (f t) r'

theorem Alike.thread? {w' : World} (alike : w.Alike w') (r : Ref) : w'.thread? r = w.thread? r := by
  simp only [World.thread?, alike.cell?]

end World

namespace Ends

variable {w w' : World}

theorem updateThread_iff {r : Ref} {f : Thread → Thread} {result : Except Fault Unit} :
    Ends (updateThread r f) w result w' ↔ result = .ok () ∧ w' = w.changeThread r f := by
  unfold updateThread World.changeThread
  rw [view_bind_iff]
  cases w.thread? r with
  | none => exact pure_iff
  | some t => exact perform_iff

theorem markResumed_iff {r : Ref} {result : Except Fault Unit} :
    Ends (Value.markResumed r) w result w' ↔
      result = .ok () ∧ w' = w.changeThread r fun t => { t with resumed := true } := by
  unfold Value.markResumed World.changeThread
  rw [view_bind_iff]
  cases w.thread? r with
  | none => exact pure_iff
  | some t => exact perform_iff

end Ends

end ScriptBridge
