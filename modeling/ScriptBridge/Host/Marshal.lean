import ScriptBridge.Native.Wrap
import ScriptBridge.Value.Table

/-!
Values to host values and back, and the choice among overloads. `HostType.accepts` says for which
values the conversion to a type succeeds; only void differs, which takes no argument.
-/

namespace ScriptBridge

namespace HostType

/-- Whether a value can be an argument of a type. -/
def accepts (w : World) (t : HostType) (v : Value) : Bool :=
  match t with
  | .void => false
  | .bool => match v with
    | .bool _ | .nil => true
    | _ => false
  | .int => v.toInteger?.isSome
  | .double => v.toNumber?.isSome
  | .string => v.toText?.isSome
  | .object => v.isNil || (w.hostObject? v).isSome
  | .native => v.isNil || (w.nativeOf? v).isSome
  | .list => v.isTable
  | .variant => true

/-- Whether a value can be an argument of a type without turning a string into a number or a number
into a string. -/
def acceptsExactly (w : World) (t : HostType) (v : Value) : Bool :=
  match t, v with
  | .int, .text _ | .double, .text _ | .string, .int _ | .string, .number _ => false
  | _, _ => t.accepts w v

def expected (what : String) (v : Value) : BridgeError :=
  .typeMismatch s!"expected {what}, found {v.typeName}"

/-- The items of a table from 1 to its length, read through metamethods. -/
def items (r : Ref) : Action (List HostValue) := do
  let length ← .operation r.owner (.view fun w => (w.tableAt r).length)
  (List.range length).mapM fun k => do
    pure (.variant (← TableOps.get r (.int (Int64.ofNat (k + 1)))))

/-- A value as a host value of a type. -/
def fromValue (t : HostType) (v : Value) : Action HostValue :=
  match t with
  | .void => pure .void
  | .bool => match v with
    | .bool b => pure (.bool b)
    | .nil => pure (.bool false)
    | v => .throw (expected "boolean" v)
  | .int => do pure (.int (← .ofExcept v.toInteger))
  | .double => do pure (.double (← .ofExcept v.toNumber))
  | .string => do pure (.text (← .ofExcept v.toText))
  | .object =>
    if v.isNil then pure (.object none)
    else do
      match ← .view (·.hostObject? v) with
      | some o => pure (.object (some o))
      | none => .throw (expected "host object" v)
  | .native =>
    if v.isNil then pure (.native none)
    else do
      match ← .view (·.nativeId? v) with
      | some n => pure (.native (some n))
      | none => .throw (expected "native object" v)
  | .list =>
    match v.ofKind? .table with
    | some h => do
      h.checkOpen
      pure (.list (← items h.target))
    | none => .throw (expected "table" v)
  | .variant => pure (.variant v)

end HostType

namespace HostValue

mutual

/-- A host value as a value of a state; host objects are wrapped as observed from outside. -/
def toValue (s : StateId) : HostValue → Action Value
  | .void => pure .nil
  | .bool b => pure (.bool b)
  | .int i => pure (.int i)
  | .double d => pure (.number d)
  | .text t => pure (.text t)
  | .object (some o) => wrapObject s o .native
  | .object none | .native none => pure .nil
  | .native (some n) => wrapNativeId s n
  | .list items => do
    let table ← TableOps.newTable s
    match table.handle? with
    | some h => fillTable s h.target 1 items
    | none => pure ()
    pure table
  | .variant v => pure v

/-- Puts host values at the positions of a table from `position` on. -/
def fillTable (s : StateId) (r : Ref) (position : Nat) : List HostValue → Action Unit
  | [] => pure ()
  | item :: items => do
    TableOps.set r (.int (Int64.ofNat position)) (← toValue s item)
    fillTable s r (position + 1) items

end

end HostValue

/-- The arguments as host values of the types of parameters. -/
def marshalArgs (params : List HostType) (args : List Value) : Action (List HostValue) :=
  (params.zip args).mapM fun (t, v) => t.fromValue v

/-- Whether arguments fit parameters one by one. -/
def fits (check : HostType → Value → Bool) (params : List HostType) (args : List Value) : Bool :=
  params.length == args.length && (params.zip args).all fun (t, v) => check t v

/-- The first candidate that takes the arguments without conversions between strings and numbers,
or else the first that takes them with such conversions. -/
def selectOverload (w : World) (params : α → List HostType) (candidates : List α)
    (args : List Value) : Option α :=
  (candidates.find? fun c => fits (HostType.acceptsExactly w) (params c) args).orElse fun _ =>
    candidates.find? fun c => fits (HostType.accepts w) (params c) args

end ScriptBridge
