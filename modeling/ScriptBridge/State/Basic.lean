import ScriptBridge.Value.Operations

/-!
States: running chunks, reading and writing globals by dotted paths, and the values that a state can
make.
-/

namespace ScriptBridge.State

def depth (w : World) (s : StateId) : Nat := ((w.engine? s).map (·.depth)).getD 0

def config (w : World) (s : StateId) : Config := ((w.engine? s).map (·.config)).getD {}

def imbalance (depth entry : Nat) : BridgeError :=
  ⟨.stackImbalance, s!"bridge depth {depth} after execute, expected {entry}", some "state.execute"⟩

/-- Runs a chunk under a name; its results are the values that it returns. -/
def executeNamed (s : StateId) (name source : String) : Action (List Value) := do
  let entry ← .view (depth · s)
  let result : Except BridgeError (List Value) ← .attempt <| .operation s do
    let data ← runTask s (.chunk (.ofString name) (.ofString source) [])
    Value.ofData data
  let after ← .view (depth · s)
  if (← .view (config · s)).debug.checkStack && after != entry then .throw (imbalance after entry)
  else .ofExcept result

/-- Runs a chunk under the configured name. -/
def execute (s : StateId) (source : String) : Action (List Value) := do
  executeNamed s (← .view (config · s)).engine.chunkName source

/-- The table of globals. -/
def globals (s : StateId) : Action Value :=
  .operation s do
    match ← .view (·.engine? s) with
    | some e => Value.anchored .table e.globals
    | none => .throw .stateClosed

/-- The parts of a dotted path, none of them empty. -/
def segments (path : String) : Except BridgeError (List String) :=
  let parts := (Text.splitOn '.' path.toList).map String.ofList
  if parts.any (·.isEmpty) then .error (.nameNotFound s!"malformed path `{path}`") else .ok parts

def isIndexable (v : Value) : Bool :=
  match v with
  | .handle h => h.kind == .table || h.kind == .userdata
  | _ => false

def pathMismatch (path : String) (before : List String) (found : Value) (tag : String) :
    BridgeError :=
  let walked := ".".intercalate before
  ⟨.pathTypeMismatch, s!"`{walked}` is a {found.typeName} value while resolving `{path}`", some tag⟩

/-- Goes on along a path from a value; `before` is the part of the path that led to it. -/
def follow (path : String) (before : List String) (current : Value) :
    List String → Action Value
  | [] => pure current
  | segment :: rest =>
    if isIndexable current then do
      follow path (before ++ [segment]) (← current.index (.text segment)) rest
    else .throw (pathMismatch path before current "state.get")

/-- Reads a global by its path. -/
def get (s : StateId) (path : String) : Action Value :=
  .operation s do
    let parts ← .ofExcept (segments path)
    follow path [] (← globals s) parts

/-- Goes along all but the last part of a path; tables that are missing are made. -/
def makeWay (s : StateId) (path : String) (before : List String) (current : Value) :
    List String → Action Value
  | [] => pure current
  | segment :: rest => do
    let next ← current.index (.text segment)
    if next.isNil then
      let table ← TableOps.newTable s
      current.setIndex (.text segment) table
      makeWay s path (before ++ [segment]) table rest
    else if isIndexable next then makeWay s path (before ++ [segment]) next rest
    else .throw (pathMismatch path (before ++ [segment]) next "state.set")

/-- Writes a global by its path. -/
def set (s : StateId) (path : String) (value : Value) : Action Unit :=
  .operation s do
    let parts ← .ofExcept (segments path)
    let table ← makeWay s path [] (← globals s) parts.dropLast
    table.setIndex (.text (parts.getLastD "")) value

/-- Fails while an operation of the bridge is in progress. -/
def checkBalance (w : World) (s : StateId) : Except BridgeError Unit :=
  match depth w s with
  | 0 => .ok ()
  | n => .error ⟨.stackImbalance, s!"{n} bridge frame(s) still open", some "state.stack"⟩

/-- A table with values at the positions from 1 on. -/
def newSequence (s : StateId) (items : List Value) : Action Value := do
  let table ← TableOps.newTable s
  (items.zipIdx 1).forM fun (item, i) => table.setIndex (.int (Int64.ofNat i)) item
  pure table

/-- A script function that does what a host function does. -/
def createFunction (s : StateId) (f : HostFunction) : Action Value :=
  .operation s do Value.anchored .function (← .perform (.allocate s (.builtin (.host f))))

def registerFunction (s : StateId) (path : String) (f : HostFunction) : Action Unit := do
  set s path (← createFunction s f)

/-- A coroutine that will run a function. -/
def newThread (s : StateId) (function : Value) : Action Value :=
  match function.ofKind? .function with
  | none =>
    .throw ⟨.typeMismatch, s!"cannot create a coroutine from a {function.typeName} value",
      some "coroutine.create"⟩
  | some h =>
    if h.state ≠ s then
      .throw ⟨.typeMismatch, "function belongs to another state", some "coroutine.create"⟩
    else .operation s do
      Value.anchored .thread (← .perform (.allocate s (.thread { progress := .fresh h.datum })))

/-- A type object of a registered class. -/
def metaType (s : StateId) (typeName : String) : Action Value := do
  match ← .view (·.lookupType typeName) with
  | some e => wrapNative s (.typeObject e.cls e.creator)
  | none => .throw ⟨.nameNotFound, s!"no registered type `{typeName}`", some "reflect.meta"⟩

/-- Makes an object of a registered class. -/
def construct (s : StateId) (typeName : String) (args : List Value) (ownership : Ownership) :
    Action Value := do
  match ← .view (·.lookupType typeName) with
  | some e => e.cls.construct s e.creator args ownership
  | none => .throw ⟨.nameNotFound, s!"no registered type `{typeName}`", some "reflect.construct"⟩

/-- Takes out host objects that nothing holds, as long as there are any. -/
def reapAll : Nat → Action Unit
  | 0 => pure ()
  | n + 1 => do
    match ← .perform .reap with
    | none => pure ()
    | some natives =>
      natives.forM releaseNative
      reapAll n

/-- Ends native objects, and after each of them the host objects that only it held. -/
def finalize (natives : List NativeId) : Action Unit :=
  natives.forM fun n => do
    releaseNative n
    reapAll (← .view (·.objects.next))

/-- A full collection: what finalisers let go of in the first round goes in the second. -/
def collectGarbage (s : StateId) : Action Unit :=
  .operation s do
    .perform (.expire s)
    .within .values (do finalize (← .perform (.sweep s)))
    .within .values (do finalize (← .perform (.sweep s)))

/-- Closes a state. Handles on its objects stay, but no operation on them succeeds. -/
def close (s : StateId) : Action Bool := do
  if ← .view (·.isOpen s) then
    .within .values (do finalize (← .perform (.closeEngine s)))
    pure true
  else pure false

end ScriptBridge.State
