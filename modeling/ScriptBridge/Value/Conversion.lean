import ScriptBridge.Action
import ScriptBridge.World.Show

/-!
Values and the data of engines. A datum that becomes a value is anchored; a value becomes a datum
only in its own state and only while that state is open.
-/

namespace ScriptBridge

open Script (Datum)

namespace Value

/-- An object of an engine as a value. -/
def anchored (kind : HandleKind) (r : Ref) : Action Value := do
  pure (.handle ⟨kind, r, ← .perform (.anchor r)⟩)

def ofDatum : Datum → Action Value
  | .nil => pure .nil
  | .bool b => pure (.bool b)
  | .int i => pure (.int i)
  | .float d => pure (.number d)
  | .text s => pure (.text s.toText)
  | .table r => anchored .table r
  | .function r => anchored .function r
  | .thread r => anchored .thread r
  | .userdata r => anchored .userdata r
  | .failure _ => .throw .caughtFailure

def ofData (data : List Datum) : Action (List Value) := data.mapM ofDatum

end Value

namespace Handle

def datum (h : Handle) : Datum :=
  match h.kind with
  | .table => .table h.target
  | .function => .function h.target
  | .thread => .thread h.target
  | .userdata => .userdata h.target

/-- Fails when the handle's state is closed. -/
def ensureOpen (w : World) (h : Handle) : Except BridgeError Unit :=
  if w.isOpen h.state then .ok () else .error .stateClosed

end Handle

namespace Value

/-- The datum of a value in a state. -/
def datum (w : World) (s : StateId) : Value → Except BridgeError Datum
  | .nil => .ok .nil
  | .bool b => .ok (.bool b)
  | .int i => .ok (.int i)
  | .number d => .ok (.float d)
  | .text t => .ok (.str t)
  | .handle h =>
    if !w.isOpen h.state then .error .stateClosed
    else if h.state ≠ s then
      .error (.typeMismatch s!"{h.kind.name} value belongs to another state")
    else .ok h.datum

def toDatum (s : StateId) (v : Value) : Action Datum := do
  .ofExcept (← .view fun w => v.datum w s)

def toData (s : StateId) (values : List Value) : Action (List Datum) := values.mapM (toDatum s)

end Value

namespace Handle

def checkOpen (h : Handle) : Action Unit := do .ofExcept (← .view h.ensureOpen)

end Handle

/-- Has the engine of a state do something; a failure of the engine is one of the bridge. -/
def runTask (s : StateId) (task : Task) : Action (List Datum) := do
  match ← .ask (.script s task) with
  | .ok data => pure data
  | .error e => .throw e.toBridge

end ScriptBridge
