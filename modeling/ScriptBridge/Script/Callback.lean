import ScriptBridge.Host.Library
import ScriptBridge.Script.Standard

/-!
Scripts that call the host's side. Arguments become bridge values, results become data again, and a
failure travels on through the script with the stack that it left. Native functions share places for
their failures; one whose place has been lost fails with a failure of its own.
-/

namespace ScriptBridge.Script

open ScriptBridge (Native NativeId)

/-- What native code gives to the engine. -/
abbrev CallbackResult := Except EngineError (List Datum)

/-- An argument of an operation of native objects. -/
def argumentOf (e : NativeEvent) (position : Nat) (d : Datum) :
    Action (Except EngineError Value) :=
  match d with
  | .failure _ =>
    let event := e.title
    pure (.error (.external
      s!"bad argument #{position} to `{event}`: {BridgeError.caughtFailure.text}"))
  | d => do pure (.ok (← Value.ofDatum d))

def oneDatum (s : StateId) (v : Value) : Action CallbackResult := do
  pure (.ok [← v.toDatum s])

def indexNative (s : StateId) (native : Native) (key : Datum) : Action CallbackResult := do
  match ← argumentOf .index 2 key with
  | .error e => pure (.error e)
  | .ok key => oneDatum s (← native.index s key)

def assignNative (n : NativeId) (native : Native) (key value : Datum) :
    Action CallbackResult := do
  match ← argumentOf .newIndex 2 key with
  | .error e => pure (.error e)
  | .ok key =>
    match ← argumentOf .newIndex 3 value with
    | .error e => pure (.error e)
    | .ok value => do
      native.assign n key value
      pure (.ok [])

def operateNative (s : StateId) (op : Operator) (left right : Datum) :
    Action CallbackResult := do
  match ← argumentOf (.operate op) 1 left with
  | .error e => pure (.error e)
  | .ok left =>
    match ← argumentOf (.operate op) 2 right with
    | .error e => pure (.error e)
    | .ok right => oneDatum s (← Native.dispatch s op left right)

def nativeOfDatum (w : World) (d : Datum) : Option (NativeId × Native) :=
  match d with
  | .userdata r => match w.cell? r with
    | some (.native n) => (w.native? n).map (n, ·)
    | _ => none
  | _ => none

/-- What an operation of native objects gives for its operands, the object first. -/
def runMember (s : StateId) (event : NativeEvent) (args : List Datum) : Action CallbackResult := do
  let first := (args.drop 1).headD .nil
  let second := (args.drop 2).headD .nil
  match event with
  | .operate op => operateNative s op (args.headD .nil) first
  | event =>
    match ← .view (nativeOfDatum · (args.headD .nil)) with
    | none => pure (.error (.external "userdata is not expected type"))
    | some (n, native) =>
      match event with
      | .index => indexNative s native first
      | .newIndex => assignNative n native first second
      | .call => do
        let results ← native.call s (← Value.ofData (args.drop 1))
        pure (.ok (← Value.toData s results))
      | .length => do pure (.ok [.int (Int64.ofNat (← native.measure))])
      | .toText => do pure (.ok [.str (← .view native.display)])
      | .operate op => operateNative s op (args.headD .nil) first

/-- What a function of the host's side gives for its arguments. -/
def runHost (s : StateId) (f : HostFunction) (args : List Datum) : Action CallbackResult := do
  let results ← f.run s (← Value.ofData args)
  pure (.ok (← Value.toData s results))

namespace Machine

/-- Runs native code in the coroutine that runs, with its place on the stack. -/
def withPlace (m : Machine) (lines : List String) (body : Action CallbackResult) :
    Action (CallbackResult × Reserve) := do
  let pooled ← .perform (.takePlace m.state)
  updateThread m.thread fun t =>
    { t with waiting := ⟨if pooled then .pooled else .stacked, lines⟩ :: t.waiting }
  let result ← .attempt body
  let reserve ← .view fun w => (((w.thread? m.thread).bind (·.waiting.head?)).map (·.reserve))
  updateThread m.thread fun t => { t with waiting := t.waiting.drop 1 }
  let result := match result with
    | .ok result => result
    | .error e => .error (.bridge e)
  pure (result, reserve.getD .pooled)

/-- Calls native code from a script. -/
def callNative (m : Machine) (form : CallForm) (body : Action CallbackResult) : Action Machine := do
  let title := Described.title form.callee "?"
  let lines ← .view (m.traceLines · form.site)
  let lines := s!"[C]: in {title}" :: lines
  match ← m.withPlace lines body with
  | (.ok data, _) => do
    .perform (.givePlace m.state)
    pure (m.give data)
  | (.error e, reserve) =>
    let cause := if reserve = .lost then .external "userdata is not expected type" else e
    pure (m.raise (.failure (.callback (traceText lines) cause)) form.site)

end Machine

end ScriptBridge.Script
