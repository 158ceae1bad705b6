import ScriptBridge.World.Tree

/-!
What native objects say of themselves: the name of their type, the types it descends from, what they
support, and their text.
-/

namespace ScriptBridge

namespace Native

/-- The name of the type. -/
def typeName (w : World) : Native → String
  | .wrapper o _ _ => (w.classOf o).name
  | .boundMethod .. => "BoundMethod"
  | .typeObject .. => "MetaType"
  | .typeNamespace => "MetaNamespace"
  | .vec2 .. => "Vec2"
  | .counter _ => "Counter"
  | .plain => "Plain"
  | .impostor => "Impostor"
  | .liar => "Liar"
  | .bag _ => "Bag"

/-- The types that the type descends from, the nearest first. -/
def lineage (w : World) : Native → List String
  | .wrapper o _ _ => (w.classOf o).ancestors.map (·.name)
  | .vec2 .. => ["Shape", "Thing"]
  | .impostor => ["Vec2"]
  | _ => []

/-- Whether the type has a name or descends from a type of that name. -/
def isA (w : World) (n : Native) (name : String) : Bool :=
  n.typeName w == name || (n.lineage w).contains name

def supports : Native → Ability → Bool
  | .wrapper .., a => a == .compare
  | .boundMethod .., a => a == .call
  | .typeObject .., a => a == .call
  | .typeNamespace, a => a == .length
  | .vec2 .., a => a == .arithmetic || a == .compare || a == .length
  | .liar, _ => true
  | .bag _, _ => true
  | _, _ => false

private def hex (n : Nat) : String := String.ofList (Nat.toDigits 16 n)

/-- The text of a native object. -/
def display (w : World) (n : Native) : String :=
  match n with
  | .wrapper o _ _ =>
    let name := w.nameOf o
    (w.classOf o).name ++ ": " ++
      (if name.isEmpty then "0x" ++ hex (0x560000000000 + 0x40 * o) else name)
  | .boundMethod o name => (w.classOf o).name ++ "::" ++ name
  | .typeObject cls _ => "MetaType: " ++ cls.name
  | .vec2 x y => "Vec2(" ++ x.text ++ ", " ++ y.text ++ ")"
  | .bag items => "Bag[" ++ toString items.length ++ "]"
  | n => n.typeName w

end Native

namespace World

def typeNameOf (w : World) (n : NativeId) : String := ((w.native? n).map (·.typeName w)).getD ""

def nativeIsA (w : World) (v : Value) (name : String) : Bool :=
  ((w.nativeOf? v).map (·.isA w name)).getD false

/-- The coordinates of a value that is a `Vec2`. -/
def vec2? (w : World) (v : Value) : Option (Double × Double) :=
  match w.nativeOf? v with
  | some (.vec2 x y) => some (x, y)
  | _ => none

/-- The class of a value that is a type object, and whether it has a creator. -/
def typeObject? (w : World) (v : Value) : Option (Class × Bool) :=
  match w.nativeOf? v with
  | some (.typeObject cls creator) => some (cls, creator)
  | _ => none

end World

end ScriptBridge
