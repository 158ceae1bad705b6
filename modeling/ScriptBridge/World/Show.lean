import ScriptBridge.Native.Traits
import ScriptBridge.World.Threads

/-!
Values as JSON: scalars with their kind, tables by their entries in a fixed order, objects by what
they are.
-/

namespace ScriptBridge

open Json (Tree)

private def digits16 (n : Nat) : String :=
  let digits := Nat.toDigits 16 n
  String.ofList (List.replicate (16 - digits.length) '0' ++ digits)

/-- The bits of a float, or `nan` for every NaN. -/
def Double.bitText (d : Double) : String := if d.isNaN then "nan" else digits16 d.bits.toNat

namespace Show

def integer (i : Int64) : Tree := .object [("i", .string (toString i.toInt))]

def float (d : Double) : Tree := .object [("f", .string d.bitText)]

/-- A table at this depth is shown without its entries. -/
def depthLimit : Nat := 4

/-- The position of a table key: integers, floats, strings, truth values, then all others. -/
inductive Rank where
  | integer (i : Int)
  | float (d : Double)
  | text (s : List UInt8)
  | bool (b : Bool)
  | other (s : List UInt8)

namespace Rank

def group : Rank → Nat
  | .integer _ => 0
  | .float _ => 1
  | .text _ => 2
  | .bool _ => 3
  | .other _ => 4

def le : Rank → Rank → Bool
  | .integer a, .integer b => a ≤ b
  | .float a, .float b => a.numLe b
  | .text a, .text b => a ≤ b
  | .bool a, .bool b => !a || b
  | .other a, .other b => a ≤ b
  | a, b => a.group ≤ b.group

end Rank

def rank (key : Script.Datum) (shown : Tree) : Rank :=
  match key with
  | .int i => .integer i.toInt
  | .float d => .float d
  | .text s => .text (Script.Bytes.ofString (Script.Bytes.toText s))
  | .bool b => .bool b
  | _ => .other (Script.Bytes.ofString shown.text)

/-- Entries in their order. -/
def sorted (entries : List (Rank × Tree × Tree)) : Tree :=
  .list ((entries.mergeSort fun a b => a.1.le b.1).map fun (_, k, v) => .list [k, v])

end Show

namespace World

def showHost (w : World) (o : ObjectId) : Tree :=
  .object [("destroyed", .bool (w.isDestroyed o)), ("name", .string (w.nameOf o)),
    ("object", .string (w.classOf o).name)]

def showUserdata (w : World) (r : Ref) : Tree :=
  match w.cell? r with
  | some (.native n) =>
    match w.native? n with
    | some (.wrapper o _ _) => w.showHost o
    | some native =>
      .object [("display", .string (native.display w)), ("native", .string (native.typeName w))]
    | none => .object [("userdata", .bool true)]
  | _ => .object [("userdata", .bool true)]

def showThread (w : World) (r : Ref) : Tree :=
  .object [("thread", .string (w.threadState r).name)]

/-- A datum as JSON; tables are shown with `levels` levels of entries. -/
def showDatum (w : World) : Nat → Script.Datum → Except BridgeError Tree
  | _, .nil => .ok .null
  | _, .bool b => .ok (.bool b)
  | _, .int i => .ok (Show.integer i)
  | _, .float d => .ok (Show.float d)
  | _, .text s => .ok (.string s.toText)
  | _, .function _ => .ok (.object [("function", .bool true)])
  | _, .thread r => .ok (w.showThread r)
  | _, .userdata r => .ok (w.showUserdata r)
  | _, .failure _ => .error .caughtFailure
  | 0, .table _ => .ok (.object [("table", .string "...")])
  | levels + 1, .table r => do
    let entries := match w.cell? r with
      | some (.table content _) => content.live
      | _ => []
    let shown ← entries.mapM fun (k, v) => do
      let key ← w.showDatum levels k
      pure (Show.rank k key, key, ← w.showDatum levels v)
    pure (.object [("table", Show.sorted shown)])

/-- A value as JSON. -/
def showValue (w : World) : Value → Except BridgeError Tree
  | .nil => .ok .null
  | .bool b => .ok (.bool b)
  | .int i => .ok (Show.integer i)
  | .number d => .ok (Show.float d)
  | .text s => .ok (.string s)
  | .handle h =>
    if !w.isOpen h.state then .ok (.object [("closed", .string h.kind.name)])
    else match h.kind with
      | .table => w.showDatum Show.depthLimit (.table h.target)
      | .function => .ok (.object [("function", .bool true)])
      | .thread => .ok (w.showThread h.target)
      | .userdata => .ok (w.showUserdata h.target)

mutual

/-- A host value as JSON. -/
def showHostValue (w : World) : HostValue → Except BridgeError Tree
  | .void => .ok (.object [("void", .bool true)])
  | .bool b => .ok (.object [("bool", .bool b)])
  | .int i => .ok (.object [("int", .string (toString i.toInt))])
  | .double d => .ok (.object [("double", .string d.bitText)])
  | .text s => .ok (.object [("string", .string s)])
  | .object o => .ok (.object [("object", .ofOption w.showHost o)])
  | .native n => .ok (.object [("native", .ofOption (fun n => .string (w.typeNameOf n)) n)])
  | .list items => do pure (.object [("list", .list (← w.showHostValues items))])
  | .variant v => do pure (.object [("variant", ← w.showValue v)])

def showHostValues (w : World) : List HostValue → Except BridgeError (List Tree)
  | [] => .ok []
  | item :: items => do pure ((← w.showHostValue item) :: (← w.showHostValues items))

end

end World

end ScriptBridge
