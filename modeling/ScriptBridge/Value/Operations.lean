import ScriptBridge.Native.Operations

/-!
Operations on values: reading and writing members, calls, lengths, entries. Tables go through their
metamethods, native objects decide for themselves, other userdata are left to the engine, and every
other kind of value fails.
-/

namespace ScriptBridge

open Script (Datum)

namespace Value

/-- The native object of a userdata, with its number. -/
def native? (v : Value) : Action (Option (NativeId × Native)) :=
  .view fun w => (w.nativeId? v).bind fun n => (w.native? n).map fun native => (n, native)

/-- Calls one of the engine's helper functions. -/
def callHelper (s : StateId) (number : Nat) (args : List Datum) : Action (List Datum) := do
  match ← .view fun w => (w.engine? s).bind fun e => e.helpers[number]? with
  | some f => runTask s (.call (.function f) args)
  | none => .throw .stateClosed

/-- Reads `v[key]`. -/
def index (v key : Value) : Action Value :=
  match v with
  | .handle h =>
    match h.kind with
    | .table => do
      h.checkOpen
      TableOps.get h.target key
    | .userdata => do
      h.checkOpen
      .operation h.state do
        match ← v.native? with
        | some (_, native) => native.index h.state key
        | none =>
          let key ← key.toDatum h.state
          Value.ofDatum ((← callHelper h.state 0 [h.datum, key]).headD .nil)
    | _ => .throw (unsupported "index" v)
  | _ => .throw (unsupported "index" v)

/-- Writes `v[key] = value`. -/
def setIndex (v key value : Value) : Action Unit :=
  match v with
  | .handle h =>
    match h.kind with
    | .table => do
      h.checkOpen
      TableOps.set h.target key value
    | .userdata => do
      h.checkOpen
      .operation h.state do
        match ← v.native? with
        | some (n, native) => native.assign n key value
        | none =>
          let key ← key.toDatum h.state
          let value ← value.toDatum h.state
          discard <| callHelper h.state 1 [h.datum, key, value]
    | _ => .throw (unsupported "assign into" v)
  | _ => .throw (unsupported "assign into" v)

def markResumed (r : Ref) : Action Unit := do
  match ← .view (·.thread? r) with
  | some t => .perform (.write r (.thread { t with resumed := true }))
  | none => pure ()

/-- Resumes a coroutine: the arguments go in, what it yields or returns comes out. -/
def resume (h : Handle) (args : List Value) : Action (List Value) := do
  h.checkOpen
  .operation h.state do
    match ← .view (·.threadState h.target) with
    | .dead =>
      .throw ⟨.coroutineDead, "cannot resume dead coroutine", some "coroutine.resume"⟩
    | .running =>
      .throw ⟨.engineRuntime, "cannot resume non-suspended coroutine", some "coroutine.resume"⟩
    | .fresh | .yielded => do
      markResumed h.target
      let args ← toData h.state args
      ofData (← runTask h.state (.resume h.target args))

/-- The metamethod of a table under a name, past metamethods. -/
def rawMeta (w : World) (table : Ref) (name : String) : Datum :=
  match w.metatableAt table with
  | some m => (w.tableAt m).get (.str name)
  | none => .nil

/-- Calls a function, a table with `__call` or a native object; calling a coroutine resumes it. -/
def call (v : Value) (args : List Value) : Action (List Value) :=
  match v with
  | .handle h =>
    match h.kind with
    | .function => do
      h.checkOpen
      .operation h.state do
        let args ← toData h.state args
        ofData (← runTask h.state (.call h.datum args))
    | .thread => resume h args
    | .userdata => do
      h.checkOpen
      .operation h.state do
        match ← v.native? with
        | some (_, native) => native.call h.state args
        | none =>
          let args ← toData h.state args
          ofData (← callHelper h.state 2 (h.datum :: args))
    | .table => do
      h.checkOpen
      .operation h.state do
        if (← .view (rawMeta · h.target "__call")).isNil then .throw (unsupported "call" v)
        else
          let args ← toData h.state args
          ofData (← callHelper h.state 2 (h.datum :: args))
  | _ => .throw (unsupported "call" v)

/-- The number of bytes of a string, the length of a sequence past metamethods, or the length that a
native object says it has. -/
def length (v : Value) : Action Nat :=
  match v with
  | .text s => pure s.utf8ByteSize
  | .handle h =>
    match h.kind with
    | .table => do
      h.checkOpen
      .operation h.state (.view fun w => (w.tableAt h.target).length)
    | .userdata => do
      h.checkOpen
      .operation h.state do
        match ← v.native? with
        | some (_, native) =>
          if native.supports .length then native.length else .throw (unsupported "measure" v)
        | none => .throw (unsupported "measure" v)
    | _ => .throw (unsupported "measure" v)
  | _ => .throw (unsupported "measure" v)

/-- Whether there is nothing in a value: a table has no entries at all, all else no length. -/
def isEmpty (v : Value) : Action Bool :=
  match v.ofKind? .table with
  | some h => do
    h.checkOpen
    .operation h.state (.view fun w => (w.tableAt h.target).live.isEmpty)
  | none => do pure ((← v.length) == 0)

/-- Removes items of a sequence (a negative count) or inserts copies of `fill`. -/
def shift (v : Value) (start count : Int64) (fill : Value) : Action Unit :=
  match v.ofKind? .table with
  | some h => do
    h.checkOpen
    TableOps.shift h.target start count fill
  | none => .throw (unsupported "shift" v)

/-- The entries of a table as they are now, past metamethods. -/
def entries (v : Value) : Action (List Entry) :=
  match v.ofKind? .table with
  | some h => do
    h.checkOpen
    TableOps.entries v h.target
  | none => .throw ⟨.typeMismatch, s!"cannot iterate a {v.typeName} value", some "value.iter"⟩

/-- The state of a coroutine. -/
def threadState (v : Value) : Action ThreadState :=
  match v.ofKind? .thread with
  | some h => do
    h.checkOpen
    .view (·.threadState h.target)
  | none => .throw (.typeMismatch s!"{v.typeName} value is not a coroutine")

def isDead (w : World) (v : Value) : Bool :=
  match v.ofKind? .thread with
  | some h => w.isOpen h.state && w.threadState h.target == .dead
  | none => false

end Value

namespace Entry

/-- Writes a value under the entry's key; the entry then has that value. -/
def set (e : Entry) (value : Value) : Action Entry := do
  e.table.setIndex e.key value
  pure { e with value := value }

end Entry

namespace World

/-- The entries of a table of a state as JSON, in the order of keys. -/
def showEntries (w : World) (s : StateId) (entries : List Entry) :
    Except BridgeError Json.Tree := do
  let shown ← entries.mapM fun e => do
    let key ← e.key.datum w s
    let value ← e.value.datum w s
    let shownKey ← w.showDatum Show.depthLimit key
    pure (Show.rank key shownKey, shownKey, ← w.showDatum Show.depthLimit value)
  pure (Show.sorted shown)

end World

end ScriptBridge
