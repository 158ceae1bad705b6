import ScriptBridge.Text.Quoted

/-!
JSON values and their compact text.
-/

namespace ScriptBridge.Json

/-- A JSON value. The fields of an object stand in the order in which they are written. -/
inductive Tree where
  | null
  | bool (b : Bool)
  | int (i : Int)
  | string (s : String)
  | list (items : List Tree)
  | object (fields : List (String × Tree))
deriving Inhabited

namespace Tree

mutual

/-- The text without blanks. -/
def text : Tree → String
  | .null => "null"
  | .bool true => "true"
  | .bool false => "false"
  | .int i => toString i
  | .string s => Text.jsonString s
  | .list items => "[" ++ joinItems items ++ "]"
  | .object fields => "\x7b" ++ joinFields fields ++ "\x7d"

private def joinItems : List Tree → String
  | [] => ""
  | [item] => item.text
  | item :: items => item.text ++ "," ++ joinItems items

private def joinFields : List (String × Tree) → String
  | [] => ""
  | [(name, value)] => Text.jsonString name ++ ":" ++ value.text
  | (name, value) :: fields => Text.jsonString name ++ ":" ++ value.text ++ "," ++ joinFields fields

end

def ofOption (f : α → Tree) : Option α → Tree
  | none => .null
  | some a => f a

def strings (items : List String) : Tree := .list (items.map .string)

end Tree

end ScriptBridge.Json
