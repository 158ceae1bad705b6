import ScriptBridge.Proofs.Alike
import ScriptBridge.Proofs.Requests

/-!
Programs that fail however they are carried out, and programs that change nothing; and what
operations on values look at before they begin.
-/

namespace ScriptBridge

open ScriptBridge.Action (Meets)
open Script (Datum)

namespace Action

/-- However a program is carried out, it fails with an error. -/
structure Fails (a : Action α) (e : BridgeError) (w : World) : Prop where
  run : (a.run w).1 = .error (.failed e)
  always : ∀ moments outcome w', Runs a w moments (some outcome) w' → outcome = .error (.failed e)

/-- The end of a program that fails with an error. -/
def Failing (e : BridgeError) (result : Except Fault α) (_ : World) : Prop :=
  result = .error (.failed e)

variable {w : World} {e : BridgeError}

theorem Meets.fails {a : Action α} (meets : a.Meets (Failing e) w) (sound : w.Sound) :
    a.Fails e w := by
  have always (moments : List Moment) (outcome : Except Fault α) (w' : World)
      (runs : Runs a w moments (some outcome) w') : outcome = .error (.failed e) :=
    (meets.passage sound runs).2 outcome rfl
  obtain ⟨moments, runs⟩ := a.runs_of_run w
  exact ⟨always moments _ _ runs, always⟩

namespace Meets

/-- A failure in a scope is one of the scope. -/
theorem within_failing [Holding α] {s : Scope} {body : Action α}
    (inside : body.Meets (Failing e) (s.enter w)) : (Action.within s body).Meets (Failing e) w := by
  refine inside.mono ?_
  rintro _ w' rfl
  exact rfl

/-- A program fails if what it does first fails. -/
theorem bind_failing {a : Action α} {f : α → Action β} (first : a.Meets (Failing e) w) :
    (a >>= f).Meets (Failing e) w := by
  refine bind_iff.mpr (first.mono ?_)
  rintro _ w' rfl
  exact rfl

end Meets

end Action

variable {w : World}

theorem World.Alike.classOf {w' : World} (alike : w.Alike w') (o : ObjectId) :
    w'.classOf o = w.classOf o := by
  simp only [World.classOf, World.object?, alike.objects]

theorem World.Alike.nativeOf? {w' : World} (alike : w.Alike w') (v : Value) :
    w'.nativeOf? v = w.nativeOf? v := by
  have natives : w'.native? = w.native? := funext alike.native?
  simp only [World.nativeOf?, World.nativeId?, alike.cell?, natives]

namespace Value

theorem checkOpen_iff {h : Handle} (isOpen : w.isOpen h.state) {f : Unit → Action α}
    {Q : Except Fault α → World → Prop} : (h.checkOpen >>= f).Meets Q w ↔ (f ()).Meets Q w := by
  unfold Handle.checkOpen
  rw [bind_assoc, Meets.view_iff, Handle.ensureOpen, if_pos isOpen]
  exact Iff.rfl

end Value

end ScriptBridge
