import ScriptBridge.Script.Machine
import ScriptBridge.Script.Number

/-!
The operations of scripts on data, with their metamethods: reading and writing members, arithmetic,
concatenation, length, equality and order, and the text of a datum.
-/

namespace ScriptBridge.Script.Machine

/-- How many metamethods a look-up may go through. -/
def chainLimit : Nat := 2000

/-- Reads `object[key]`, through at most `n` metamethods. -/
def indexTo (m : Machine) (key : Datum) (site : Option Site) :
    Nat → Datum → Option Described → Action Machine
  | 0, _, _ => pure (m.fail site "'__index' chain too long; possibly a loop")
  | n + 1, object, name => do
    let raw ← .view fun w => match object with
      | .table r => (w.tableAt r).get key
      | _ => .nil
    if !raw.isNil then pure (m.give [raw])
    else match object, ← m.metamethod object "__index" with
      | .table _, none => pure (m.give [.nil])
      | _, none => m.failOn "index" object name site
      | _, some (.datum (.function f)) =>
        pure ((m.push .single).callMetamethod (.datum (.function f)) "__index" [object, key] site)
      | _, some (.member event) =>
        pure ((m.push .single).callMetamethod (.member event) "__index" [object, key] site)
      | _, some (.datum next) => indexTo m key site n next none

def index (m : Machine) (object key : Datum) (name : Option Described) (site : Option Site) :
    Action Machine :=
  m.indexTo key site chainLimit object name

/-- Writes a member of a table past metamethods. -/
def rawAssign (m : Machine) (r : Ref) (key value : Datum) (site : Option Site) :
    Action Machine := do
  match key with
  | .nil => pure (m.fail site "table index is nil")
  | .float d =>
    if d.isNaN then pure (m.fail site "table index is NaN") else store
  | _ => store
where
  store : Action Machine := do
    let (content, metatable) ← .view fun w => (w.tableAt r, w.metatableAt r)
    .perform (.write r (.table (content.set key value) metatable))
    pure (m.give [])

/-- Writes `object[key] = value`, through at most `n` metamethods. -/
def assignTo (m : Machine) (key value : Datum) (site : Option Site) :
    Nat → Datum → Option Described → Action Machine
  | 0, _, _ => pure (m.fail site "'__newindex' chain too long; possibly a loop")
  | n + 1, object, name => do
    let raw ← .view fun w => match object with
      | .table r => (w.tableAt r).get key
      | _ => .nil
    let found ← if raw.isNil then m.metamethod object "__newindex" else pure none
    match object, found with
    | .table r, none => m.rawAssign r key value site
    | _, none => m.failOn "index" object name site
    | _, some (.datum (.function f)) =>
      pure (m.callMetamethod (.datum (.function f)) "__newindex" [object, key, value] site)
    | _, some (.member event) =>
      pure (m.callMetamethod (.member event) "__newindex" [object, key, value] site)
    | _, some (.datum next) => assignTo m key value site n next none

def assign (m : Machine) (object key value : Datum) (name : Option Described)
    (site : Option Site) : Action Machine :=
  m.assignTo key value site chainLimit object name

def binaryEvent : BinaryOp → String
  | .add => "__add"
  | .sub => "__sub"
  | .mul => "__mul"
  | .div => "__div"
  | .mod => "__mod"
  | .pow => "__pow"
  | .idiv => "__idiv"
  | .band => "__band"
  | .bor => "__bor"
  | .bxor => "__bxor"
  | .shl => "__shl"
  | .shr => "__shr"
  | .concat => "__concat"
  | .eq | .ne => "__eq"
  | .lt | .gt => "__lt"
  | .le | .ge => "__le"

def giveResult (m : Machine) (site : Option Site) :
    Except ArithmeticError Datum → Machine
  | .ok result => m.give [result]
  | .error e => m.fail site e.message

/-- An operand with the name that messages give to it. -/
structure Operand where
  value : Datum
  name : Option Described := none

/-- Arithmetic that is not possible: the first operand that is no number is to blame. -/
def failArithmetic (m : Machine) (op : BinaryOp) (left right : Operand)
    (site : Option Site) : Action Machine :=
  let isBad (o : Operand) : Bool := !o.value.isNumber
  if op.isBitwise && !isBad left && !isBad right then
    let culprit := if left.value.asInt.isNone then left else right
    pure (m.fail site s!"number{Described.text culprit.name} has no integer representation")
  else
    let culprit := if isBad left then left else right
    m.failOn (if op.isBitwise then "perform bitwise operation on" else "perform arithmetic on")
      culprit.value culprit.name site

def isText : Datum → Bool
  | .text _ => true
  | _ => false

/-- Arithmetic of which an operand is a string: what the string library makes of it. -/
def textArithmetic (m : Machine) (op : BinaryOp) (left right : Operand)
    (site : Option Site) : Action Machine := do
  match op.compute left.value right.value with
  | some result => pure (m.giveResult site result)
  | none =>
    let other ←
      if isText right.value then pure none else m.metamethod right.value (binaryEvent op)
    match other with
    | some f =>
      pure ((m.push .single).callMetamethod f (binaryEvent op) [left.value, right.value] site)
    | none =>
      pure (m.fail site s!"attempt to perform arithmetic on a {left.value.typeName} value")

def arithmetic (m : Machine) (op : BinaryOp) (left right : Operand) (site : Option Site) :
    Action Machine := do
  let direct :=
    if (left.value.isNumber && right.value.isNumber) || op.isBitwise then
      op.compute left.value right.value
    else none
  match direct with
  | some result => pure (m.giveResult site result)
  | none =>
    let hasStrings ← .view fun w => ((w.engine? m.state).bind (·.stringMeta)).isSome
    let own ← if isText left.value then pure none else m.metamethod left.value (binaryEvent op)
    let other ←
      if isText right.value then pure none else m.metamethod right.value (binaryEvent op)
    let viaText := hasStrings && !op.isBitwise &&
      (isText left.value || (own.isNone && isText right.value))
    if viaText then m.textArithmetic op left right site
    else match own.orElse fun _ => other with
      | some f =>
        pure ((m.push .single).callMetamethod f (binaryEvent op) [left.value, right.value] site)
      | none => m.failArithmetic op left right site

def concatenate (m : Machine) (left right : Operand) (site : Option Site) : Action Machine := do
  match left.value.asText, right.value.asText with
  | some a, some b => pure (m.give [.text (a ++ b)])
  | isLeft, _ =>
    match ← m.metamethodOf left.value right.value "__concat" with
    | some f =>
      pure ((m.push .single).callMetamethod f "__concat" [left.value, right.value] site)
    | none =>
      let culprit := if isLeft.isSome then right else left
      m.failOn "concatenate" culprit.value culprit.name site

/-- Equality; only two tables or two userdata have metamethods for it. -/
def equal (m : Machine) (negated : Bool) (left right : Datum) (site : Option Site) :
    Action Machine := do
  let mayDiffer := match left, right with
    | .table a, .table b | .userdata a, .userdata b => a != b
    | .userdata _, .failure _ | .failure _, .userdata _ => true
    | _, _ => false
  let found ← if mayDiffer then m.metamethodOf left right "__eq" else pure none
  match found with
  | some f => pure ((m.push (.truth negated)).callMetamethod f "__eq" [left, right] site)
  | none => pure (m.give [.bool (left.rawEq right != negated)])

/-- Order: `left` before `right`, or at the same place with `orEqual`. -/
def compare (m : Machine) (orEqual : Bool) (left right : Datum) (site : Option Site) :
    Action Machine := do
  match Datum.less orEqual left right with
  | some b => pure (m.give [.bool b])
  | none =>
    let event := if orEqual then "__le" else "__lt"
    match ← m.metamethodOf left right event with
    | some f => pure ((m.push (.truth false)).callMetamethod f event [left, right] site)
    | none =>
      let a ← .view fun w => w.typeNameIn m.state left
      let b ← .view fun w => w.typeNameIn m.state right
      pure (m.fail site <|
        if a == b then s!"attempt to compare two {a} values"
        else s!"attempt to compare {a} with {b}")

def binary (m : Machine) (op : BinaryOp) (left right : Operand) (site : Option Site) :
    Action Machine :=
  match op with
  | .concat => m.concatenate left right site
  | .eq => m.equal false left.value right.value site
  | .ne => m.equal true left.value right.value site
  | .lt => m.compare false left.value right.value site
  | .le => m.compare true left.value right.value site
  | .gt => m.compare false right.value left.value site
  | .ge => m.compare true right.value left.value site
  | op => m.arithmetic op left right site

def negated (d : Datum) : Option Datum :=
  match d.asNumber with
  | some (.int i) => some (.int (-i))
  | some (.float x) => some (.float x.neg)
  | _ => none

def negate (m : Machine) (o : Operand) (site : Option Site) : Action Machine := do
  let hasStrings ← .view fun w => ((w.engine? m.state).bind (·.stringMeta)).isSome
  match (if isText o.value && !hasStrings then none else negated o.value) with
  | some d => pure (m.give [d])
  | none =>
    match ← if isText o.value then pure none else m.metamethod o.value "__unm" with
    | some f => pure ((m.push .single).callMetamethod f "__unm" [o.value, o.value] site)
    | none =>
      m.failOn "perform arithmetic on" o.value
        (if isText o.value && hasStrings then none else o.name) site

def complement (m : Machine) (o : Operand) (site : Option Site) : Action Machine := do
  match o.value.asInt with
  | some i => pure (m.give [.int (~~~i)])
  | none =>
    match ← m.metamethod o.value "__bnot" with
    | some f => pure ((m.push .single).callMetamethod f "__bnot" [o.value, o.value] site)
    | none => m.failArithmetic .band o o site

def length (m : Machine) (o : Operand) (site : Option Site) : Action Machine := do
  match o.value with
  | .text s => pure (m.give [.int (Int64.ofNat s.length)])
  | d =>
    match d, ← m.metamethod d "__len" with
    | _, some f => pure ((m.push .single).callMetamethod f "__len" [d, d] site)
    | .table r, none => do
      let n ← .view fun w => (w.tableAt r).length
      pure (m.give [.int (Int64.ofNat n)])
    | _, none => m.failOn "get length of" d o.name site

def unary (m : Machine) (op : UnaryOp) (o : Operand) (site : Option Site) : Action Machine :=
  match op with
  | .not => pure (m.give [.bool (!o.value.isTrue)])
  | .neg => m.negate o site
  | .len => m.length o site
  | .bnot => m.complement o site

def hexDigits (n : Nat) : String := String.ofList (Nat.toDigits 16 n)

/-- The text of a datum that has none of its own: its type and its place. -/
def placeText (typeName : String) (d : Datum) : Bytes :=
  let place := match d.ref? with
    | some r => Handle.address r
    | none => 0x570000000000
  Bytes.ofString (typeName ++ ": 0x" ++ hexDigits place)

/-- Gives the text of a datum; a metamethod for it may have to run. -/
def showDatum (m : Machine) (d : Datum) (site : Option Site) : Action Machine :=
  match d with
  | .nil => pure (m.give [.str "nil"])
  | .bool b => pure (m.give [.str (if b then "true" else "false")])
  | .failure e => pure (m.give [.str e.text])
  | d =>
    match d.asText with
    | some s => pure (m.give [.text s])
    | none => do
      match ← m.metamethod d "__tostring" with
      | some f =>
        pure ((m.push (.text site)).call f [d]
          { callee := some ⟨"metamethod", eventName "__tostring"⟩ })
      | none =>
        let typeName ← .view fun w => w.typeNameIn m.state d
        pure (m.give [.text (placeText typeName d)])

end ScriptBridge.Script.Machine
