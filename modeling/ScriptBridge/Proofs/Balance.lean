import ScriptBridge.Proofs.Depth
import ScriptBridge.Proofs.GuardedCalls
import ScriptBridge.Proofs.Traces

/-!
The balance of the bridge: an operation that has ended leaves every depth as it has found it, however it
ends and wherever in a session it was asked for. Hence no operation is in progress between two steps, one
is wherever a script calls native code, and running a chunk never finds a depth that it does not expect.
-/

namespace ScriptBridge

open Script (Builtin CallForm CallbackResult Machine)

namespace Layer

end Layer

namespace State

/-- What running a chunk does apart from the check of the depth. -/
def executing (s : StateId) (name source : String) : Action (List Value) :=
  .operation s do
    let data ← runTask s (.chunk (.ofString name) (.ofString source) [])
    Value.ofData data

variable {v v' : World} {s : StateId} {name source : String}

end State

namespace Session

variable {before : List Moment} {w : World}

/-- Between two steps no operation is in progress. -/
theorem counts (session : Session before w) : w.Counts [] := by
  induction session with
  | start =>
    intro s depth deep
    simp [World.depth?, World.engine?] at deep
  | step _ step runs ih => exact runs.keeps rfl step.guarded_program ih

theorem checkBalance (session : Session before w) (s : StateId) :
    State.checkBalance w s = .ok () := by
  have none : State.depth w s = 0 := by
    rw [World.depth_eq]
    cases deep : w.depth? s with
    | none => rfl
    | some depth => exact session.counts s depth deep
  unfold State.checkBalance
  rw [none]
  rfl

variable {step : Step} {α β : Type} {layers : List Layer} {v v' : World}

end Session

/-- The function of an engine that a reference stands for. -/
def World.builtin? (w : World) (r : Ref) : Option Builtin :=
  match w.cell? r with
  | some (.builtin b) => some b
  | _ => none

theorem World.cell?_of_builtin? {w : World} {r : Ref} {b : Builtin} (found : w.builtin? r = some b) :
    w.cell? r = some (.builtin b) := by
  unfold World.builtin? at found
  split at found
  · cases found
    assumption
  · cases found

namespace Visits

/-- To call a function of the host's side is to get to its native code. -/
theorem host {w : World} {s : StateId} {r thread : Ref} {f : HostFunction}
    (running : (w.engine? s).map (·.running) = some thread)
    (found : w.builtin? r = some (.host f)) (args : List Script.Datum) :
    ∃ (m : Machine) (rest : Machine → Action Script.Outcome), m.state = s ∧
      Visits (Script.runTask s (.call (.function r) args)) w []
        (m.callNative {} (Script.runHost s f args) >>= rest) w := by
  obtain ⟨n, limit⟩ : ∃ n, Script.stepLimit = n + 1 := ⟨49999999, rfl⟩
  let m : Machine := { state := s, thread := thread, control := .call (.datum (.function r)) args {} }
  have stepping : m.run (n + 1) = m.enterCall (.datum (.function r)) args {} >>= Machine.run n := by
    have first : m.step = .continue <$> m.enterCall (.datum (.function r)) args {} := rfl
    rw [Machine.run, first, map_eq_pure_bind, bind_assoc]
    rfl
  have calling : Visits (m.run (n + 1)) w []
      (m.callNative {} (Script.runHost s f args) >>= Machine.run n) w := by
    rw [stepping]
    unfold Machine.enterCall
    dsimp only
    rw [bind_assoc]
    refine .op ?_
    simp only [Op.apply, Action.bind, World.cell?_of_builtin? found]
    exact .here _ _
  refine ⟨m, Machine.run n, rfl, ?_⟩
  unfold Script.runTask Script.startHere
  refine .op ?_
  dsimp only [Op.apply]
  rw [running]
  change Visits (m.run Script.stepLimit) w [] _ w
  rw [limit]
  exact calling

end Visits

namespace Session

/-- A state with a function that tells how many operations are in progress. -/
def reporting : List Step := [⟨.openState .bare, []⟩, ⟨.createFunction 0 .frames, ["f"]⟩]

/-- A class with a property that cannot be read while something else is out of balance. -/
def teller : Class := ⟨{
  name := "Teller"
  properties := [{
    name := "balance", type := .int, getter := .fail ⟨.stackImbalance, "not balanced", none⟩ }] }, []⟩

/-- A script gets hold of an object of the class. -/
def telling : List Step := [
  ⟨.openState .bare, []⟩, ⟨.newObject teller "", ["h"]⟩, ⟨.wrap 0 0 .native, ["o"]⟩,
  ⟨.set 0 "o" (.handle ⟨.userdata, ⟨0, 29⟩, 0⟩), []⟩]

end Session

end ScriptBridge
