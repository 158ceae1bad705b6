import ScriptBridge.World.Basic

/-!
Metamethods: what a datum has under the name of an event. Tables, strings and files have metatables;
native objects have fixed operations instead, and scripts cannot see their metatable.
-/

namespace ScriptBridge

namespace Script

/-- What can be called: a datum, or an operation of native objects. -/
inductive Callee where
  | datum (d : Datum)
  | member (event : NativeEvent)

/-- The name of the type that all native objects share. -/
def nativeTypeName : String := "NativeCell"

/-- The operations of native objects by the names of metamethods. -/
def nativeEvents : List (String × NativeEvent) :=
  [("__index", .index), ("__newindex", .newIndex), ("__call", .call), ("__len", .length),
   ("__tostring", .toText), ("__add", .operate .add), ("__sub", .operate .sub),
   ("__mul", .operate .mul), ("__div", .operate .div), ("__mod", .operate .mod),
   ("__pow", .operate .pow), ("__idiv", .operate .idiv), ("__unm", .operate .unm),
   ("__concat", .operate .concat), ("__eq", .operate .eq), ("__lt", .operate .lt),
   ("__le", .operate .le)]

/-- The name of a metamethod, as messages have it. -/
def eventName (event : String) : String := String.ofList (event.toList.drop 2)

end Script

/-- The name of an operation of native objects in complaints. -/
def NativeEvent.title (e : NativeEvent) : String :=
  Script.nativeTypeName ++ "." ++ ((Script.nativeEvents.find? (·.2 == e)).map (·.1)).getD ""

namespace World

open Script (Datum Callee)

/-- Whether a userdata holds a native object. -/
def isNative (w : World) (d : Datum) : Bool :=
  match d with
  | .userdata r => match w.cell? r with
    | some (.native _) => true
    | _ => false
  | _ => false

/-- The metatable that scripts can see. -/
def metatableOf (w : World) (s : StateId) : Datum → Option Ref
  | .table r => w.metatableAt r
  | .text _ => (w.engine? s).bind (·.stringMeta)
  | .userdata r => match w.cell? r with
    | some .file => (w.engine? s).bind (·.fileMeta)
    | _ => none
  | _ => none

/-- What a metatable has under a name. -/
def metafield (w : World) (s : StateId) (d : Datum) (name : String) : Datum :=
  match w.metatableOf s d with
  | some m => (w.tableAt m).get (.str name)
  | none => .nil

/-- What a datum has for an event. -/
def metamethod (w : World) (s : StateId) (d : Datum) (event : String) : Option Callee :=
  if w.isNative d then
    (Script.nativeEvents.find? (·.1 == event)).map fun (_, e) => .member e
  else match w.metafield s d event with
    | .nil => none
    | found => some (.datum found)

/-- The name of a datum's type in messages. -/
def typeNameIn (w : World) (s : StateId) (d : Datum) : String :=
  if w.isNative d then Script.nativeTypeName
  else match d with
    | .table _ | .userdata _ => match w.metafield s d "__name" with
      | .text name => name.toText
      | _ => d.typeName
    | _ => d.typeName

end World

end ScriptBridge
