import ScriptBridge.Host.Type
import ScriptBridge.Value

/-!
Values on the host's side: what properties hold and what members take and give.
-/

namespace ScriptBridge

abbrev ObjectId := Nat

abbrev NativeId := Nat

inductive HostValue where
  | void
  | bool (b : Bool)
  | int (i : Int64)
  | double (d : Double)
  | text (s : String)
  | object (o : Option ObjectId)
  | native (n : Option NativeId)
  | list (items : List HostValue)
  | variant (v : Value)
deriving Inhabited

namespace HostValue

def asBool : HostValue → Option Bool
  | .bool b => some b
  | _ => none

def asInt : HostValue → Option Int64
  | .int i => some i
  | _ => none

/-- A number; an integer also reads as one. -/
def asDouble : HostValue → Option Double
  | .double d => some d
  | .int i => some (.ofInt64 i)
  | _ => none

def asText : HostValue → Option String
  | .text s => some s
  | _ => none

def asObject : HostValue → Option ObjectId
  | .object o => o
  | _ => none

mutual

/-- The handles that a host value holds. -/
def handles : HostValue → List Handle
  | .variant (.handle h) => [h]
  | .list items => handlesAll items
  | _ => []

def handlesAll : List HostValue → List Handle
  | [] => []
  | item :: items => item.handles ++ handlesAll items

end

mutual

/-- The host objects that a host value holds. -/
def objects : HostValue → List ObjectId
  | .object (some o) => [o]
  | .list items => objectsAll items
  | _ => []

def objectsAll : List HostValue → List ObjectId
  | [] => []
  | item :: items => item.objects ++ objectsAll items

end

mutual

/-- The native objects that a host value holds. -/
def natives : HostValue → List NativeId
  | .native (some n) => [n]
  | .list items => nativesAll items
  | _ => []

def nativesAll : List HostValue → List NativeId
  | [] => []
  | item :: items => item.natives ++ nativesAll items

end

mutual

/-- The description of a host value; `className` and `typeName` name the references in it. -/
def description (className : ObjectId → String) (typeName : NativeId → String) : HostValue → String
  | .void => "Void"
  | .bool b => "Bool(" ++ toString b ++ ")"
  | .int i => "Int(" ++ toString i.toInt ++ ")"
  | .double d => "Double(" ++ d.plain ++ ")"
  | .text s => "String(" ++ Text.quoted s ++ ")"
  | .object (some o) => "Object(" ++ className o ++ ")"
  | .object none => "Object(null)"
  | .native (some n) => "Native(" ++ typeName n ++ ")"
  | .native none => "Native(null)"
  | .list items => "List([" ++ descriptions className typeName items ++ "])"
  | .variant v => "Variant(" ++ v.description ++ ")"

def descriptions (className : ObjectId → String) (typeName : NativeId → String) :
    List HostValue → String
  | [] => ""
  | [item] => item.description className typeName
  | item :: items =>
    item.description className typeName ++ ", " ++ descriptions className typeName items

end

end HostValue

end ScriptBridge
