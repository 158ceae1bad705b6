import ScriptBridge.Error
import ScriptBridge.Number.FloatText
import ScriptBridge.Number.Numeral
import ScriptBridge.Text.Quoted

/-!
Bridge values: script scalars, and handles on the objects of an engine. Main points: equality is
the raw equality of scripts, and scalars convert to integers, numbers and strings as scripts convert
them.
-/

namespace ScriptBridge

/-- A state is one engine with what the bridge knows of it. -/
abbrev StateId := Nat

/-- An object in the heap of a state's engine. -/
structure Ref where
  owner : StateId
  index : Nat
deriving DecidableEq, Repr, Inhabited

/-- What a handle is on. -/
inductive HandleKind where
  | table
  | function
  | thread
  | userdata
deriving DecidableEq, Repr

def HandleKind.name : HandleKind → String
  | .table => "table"
  | .function => "function"
  | .thread => "thread"
  | .userdata => "userdata"

/-- An anchor keeps the object of an engine alive while some value refers to it. -/
abbrev AnchorId := Nat

/-- A reference to an object of an engine. All copies of one handle share one anchor. -/
structure Handle where
  kind : HandleKind
  target : Ref
  anchor : AnchorId
deriving DecidableEq, Repr

namespace Handle

/-- The state that the handle belongs to. -/
def state (h : Handle) : StateId := h.target.owner

def sameObject (a b : Handle) : Bool := a.target == b.target

/-- A number that is the same for all handles on one object. -/
def address (r : Ref) : Nat := 0x550000000000 + r.owner * 0x100000000 + r.index * 0x20

end Handle

inductive Value where
  | nil
  | bool (b : Bool)
  | int (i : Int64)
  | number (d : Double)
  /-- A script string; what is not UTF-8 in it has been replaced. -/
  | text (s : String)
  | handle (h : Handle)
deriving DecidableEq, Repr, Inhabited

namespace Value

/-- The name of the kind of a value, as scripts call it. -/
def typeName : Value → String
  | .nil => "nil"
  | .bool _ => "boolean"
  | .int _ | .number _ => "number"
  | .text _ => "string"
  | .handle h => h.kind.name

def isNil : Value → Bool
  | .nil => true
  | _ => false

def handle? : Value → Option Handle
  | .handle h => some h
  | _ => none

/-- The handle of a value of one kind. -/
def ofKind? (kind : HandleKind) : Value → Option Handle
  | .handle h => if h.kind = kind then some h else none
  | _ => none

def isTable (v : Value) : Bool := (v.ofKind? .table).isSome

def isFunction (v : Value) : Bool := (v.ofKind? .function).isSome

/-- Only nil and false count as false. -/
def toBool : Value → Bool
  | .nil | .bool false => false
  | _ => true

/-- Whether an integer and a float are the same number. -/
def intFloatEq (i : Int64) (d : Double) : Bool := d.asInteger? == some i

/-- Equality of values: scalars by value, integers and floats as numbers, objects by identity. -/
def eq : Value → Value → Bool
  | .nil, .nil => true
  | .bool a, .bool b => a == b
  | .int a, .int b => a == b
  | .number a, .number b => a.numEq b
  | .int i, .number d | .number d, .int i => intFloatEq i d
  | .text a, .text b => a == b
  | .handle a, .handle b => a.kind == b.kind && a.sameObject b
  | _, _ => false

private def hex (n : Nat) : String := String.ofList (Nat.toDigits 16 n)

/-- The text of a value in messages. -/
def display : Value → String
  | .nil => "nil"
  | .bool b => if b then "true" else "false"
  | .int i => toString i.toInt
  | .number d => d.text
  | .text s => s
  | .handle h => h.kind.name ++ ": 0x" ++ hex (Handle.address h.target)

/-- The text of a value in descriptions. -/
def description : Value → String
  | .nil => "Nil"
  | .bool b => "Boolean(" ++ (if b then "true" else "false") ++ ")"
  | .int i => "Integer(" ++ toString i.toInt ++ ")"
  | .number d => "Number(" ++ d.debug ++ ")"
  | .text s => "String(" ++ Text.quoted s ++ ")"
  | .handle h => (match h.kind with
    | .table => "Table("
    | .function => "Function("
    | .thread => "Thread("
    | .userdata => "UserData(") ++ (Value.handle h).display ++ ")"

def toInteger? : Value → Option Int64
  | .int i => some i
  | .number d => d.asInteger?
  | .text s => (Numeral.parse? s).bind Numeral.toInt64?
  | _ => none

def toNumber? : Value → Option Double
  | .int i => some (.ofInt64 i)
  | .number d => some d
  | .text s => (Numeral.parse? s).map Numeral.toDouble
  | _ => none

def toText? : Value → Option String
  | .text s => some s
  | .int i => some (toString i.toInt)
  | .number d => some d.text
  | _ => none

private def converted (v : Value) (target : String) : Option α → Except BridgeError α
  | some a => .ok a
  | none => .error
      ⟨.typeMismatch, s!"cannot convert {v.typeName} value `{v.display}` to {target}",
        some "value.convert"⟩

/-- Numerals and floats without a fraction convert to integers. -/
def toInteger (v : Value) : Except BridgeError Int64 := converted v "integer" v.toInteger?

def toNumber (v : Value) : Except BridgeError Double := converted v "number" v.toNumber?

/-- Only strings and numbers convert to strings. -/
def toText (v : Value) : Except BridgeError String := converted v "string" v.toText?

/-- The failure of an operation on a kind of value that does not have it. -/
def unsupported (operation : String) (v : Value) : BridgeError :=
  ⟨.typeMismatch, s!"cannot {operation} a {v.typeName} value", some ("value." ++ operation)⟩

/-- The names of the kinds of some arguments. -/
def typeNames (args : List Value) : String := ", ".intercalate (args.map typeName)

end Value

end ScriptBridge
