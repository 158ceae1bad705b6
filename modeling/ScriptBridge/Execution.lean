import ScriptBridge.Report
import ScriptBridge.State.Opening

/-!
Runs: a state is opened for a program, and the values that the program returns are its result.
-/

namespace ScriptBridge

/-- The state of a run and what its program returned. -/
structure RunOutput where
  state : StateId
  values : List Value

instance : Holding RunOutput := ⟨fun output => handles output.values⟩

namespace Value

/-- The text of a returned value; native objects have their own. -/
def shown (w : World) (v : Value) : String :=
  match w.nativeOf? v with
  | some native => native.display w
  | none => v.display

end Value

namespace RunConfig

/-- Runs a program in a state. -/
def runIn (c : RunConfig) (s : StateId) (chunkName source : String) : Action RunOutput := do
  let values ← State.executeNamed s chunkName source
  if c.collectAfterRun then State.collectGarbage s
  if c.bridge.debug.checkStack then .ofExcept (← .view (State.checkBalance · s))
  pure ⟨s, values⟩

/-- Runs a program under a chunk name in a state of its own, which is closed when that fails. -/
def runNamed (c : RunConfig) (chunkName source : String) : Action RunOutput := do
  let s ← State.openState c.bridge
  match ← .attempt (c.runIn s chunkName source) with
  | .ok output => pure output
  | .error e => do
    discard <| State.close s
    .throw e

/-- Runs a program under the configured chunk name. -/
def run (c : RunConfig) (source : String) : Action RunOutput :=
  c.runNamed c.bridge.engine.chunkName source

end RunConfig

/-- How a run of a program ends. -/
structure RunResult where
  outcome : Except RunError RunOutput
  world : World

namespace RunResult

/-- Runs a program in a world. -/
def of (w : World) (program : Action RunOutput) : RunResult :=
  match program.run w with
  | (.ok output, w) => ⟨.ok output, w⟩
  | (.error (.failed e), w) => ⟨.error (.script e), w⟩
  | (.error .exhausted, w) =>
    ⟨.error (.script ⟨.engineRuntime, "the program does not end", some "engine.runtime"⟩), w⟩

end RunResult

end ScriptBridge
