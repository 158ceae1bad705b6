import ScriptBridge.Host.Construction
import ScriptBridge.Script.Builtin

/-!
What native objects do when they are indexed, assigned to, called, measured or operated on. What an
object does not have fails with a kind of its own.
-/

namespace ScriptBridge.Native

def operatorUnsupported (op : Operator) (typeName : String) : BridgeError :=
  .typeMismatch s!"operator `{op.name}` is not supported by `{typeName}`"

def lengthUnsupported (typeName : String) : BridgeError :=
  .typeMismatch s!"`{typeName}` has no length"

/-- The name of a member; only strings name members of host objects. -/
def memberName (key : Value) (className : String) : Except BridgeError String :=
  match key with
  | .text name => .ok name
  | key => .error (.memberMissing key.display className)

/-- Reads a property of a host object or binds its methods of a name. -/
def readMember (s : StateId) (o : ObjectId) (key : Value) : Action Value := do
  let c ← .view (·.classOf o)
  let name ← .ofExcept (memberName key c.name)
  .ofExcept (← .view (·.ensureAlive o))
  match c.property? name with
  | some p => do HostValue.toValue s (← p.read o)
  | none =>
    if (c.membersNamed name).isEmpty then .throw (.memberMissing name c.name)
    else wrapNative s (.boundMethod o name)

/-- Writes a property of a host object; the result says whether there is one. -/
def writeMember (o : ObjectId) (key value : Value) : Action Bool := do
  let c ← .view (·.classOf o)
  let name ← .ofExcept (memberName key c.name)
  .ofExcept (← .view (·.ensureAlive o))
  match c.property? name with
  | some p =>
    match p.setter with
    | none => .throw ⟨.notAssignable, s!"property `{name}` of `{c.name}` is read-only", none⟩
    | some setter => do
      let value ← p.type.fromValue value
      discard <| setter.run o p.name [value]
      pure true
  | none =>
    if (c.membersNamed name).isEmpty then pure false
    else .throw ⟨.notAssignable, s!"cannot assign to method `{name}` of `{c.name}`", none⟩

/-- Calls the method of a name that the arguments select. The object itself may come first. -/
def callMember (s : StateId) (o : ObjectId) (name : String) (args : List Value) :
    Action (List Value) := do
  let c ← .view (·.classOf o)
  .ofExcept (← .view (·.ensureAlive o))
  let isSelf ← .view fun w => (args.head?.bind w.hostObject?) == some o
  let args := if isSelf then args.drop 1 else args
  match ← .view (selectOverload · Member.params (c.membersNamed name) args) with
  | none =>
    .throw <| .typeMismatch
      s!"no overload of `{c.name}::{name}` accepts ({Value.typeNames args})"
  | some m => do
    let hostArgs ← marshalArgs m.params args
    if m.kind = .signal then
      emitSignal o m.text hostArgs
      pure []
    else match m.body with
      | none => .throw (.notCallable m.text)
      | some body => do
        match ← body.run o m.text hostArgs with
        | .void => pure []
        | result => do pure [← HostValue.toValue s result]

def typeMember (w : World) (c : Class) (key : Value) : Except BridgeError Value :=
  match key with
  | .text "className" => .ok (.text c.name)
  | .text "superClass" => .ok ((c.superclass.map fun s => Value.text s.name).getD .nil)
  | .text "typeId" =>
    .ok (((w.lookupType c.name).map fun e => Value.int (Int64.ofNat e.id)).getD .nil)
  | key => .error (.memberMissing key.display "MetaType")

def index (s : StateId) (native : Native) (key : Value) : Action Value :=
  match native with
  | .wrapper o _ _ => readMember s o key
  | .typeObject c _ => do .ofExcept (← .view (typeMember · c key))
  | .typeNamespace =>
    match key with
    | .text name => do
      match ← .view (·.lookupType name) with
      | some e => wrapNative s (.typeObject e.cls e.creator)
      | none => .throw ⟨.nameNotFound, s!"no registered type `{name}`", some "host.meta"⟩
    | key => .throw (.memberMissing key.display "MetaNamespace")
  | .vec2 x y =>
    match key with
    | .text "x" => pure (.number x)
    | .text "y" => pure (.number y)
    | key => .throw (.memberMissing key.display "Vec2")
  | .counter count =>
    match key with
    | .text "count" => pure (.int count)
    | key => .throw (.memberMissing key.display "Counter")
  | .bag items => do
    let i ← .ofExcept key.toInteger
    pure (if i.toInt < 1 then .nil else items.getD (i.toInt.toNat - 1) .nil)
  | .boundMethod .. => .throw (.memberMissing key.display "BoundMethod")
  | .plain => .throw (.memberMissing key.display "Plain")
  | .impostor => .throw (.memberMissing key.display "Impostor")
  | .liar => .throw (.memberMissing key.display "Liar")

/-- Assigns a member; the result says whether the object takes the key. -/
def newIndex (n : NativeId) (native : Native) (key value : Value) : Action Bool :=
  match native with
  | .wrapper o _ _ => writeMember o key value
  | .typeNamespace =>
    .throw ⟨.notAssignable, s!"cannot assign `{key.display}` in the type namespace",
      some "host.meta"⟩
  | .counter _ =>
    match key with
    | .text "count" => do
      .perform (.setCount n (← .ofExcept value.toInteger))
      pure true
    | _ => pure false
  | _ => pure false

/-- Assigns a member or fails. -/
def assign (n : NativeId) (native : Native) (key value : Value) : Action Unit := do
  if ← native.newIndex n key value then pure ()
  else
    let typeName ← .view native.typeName
    .throw ((BridgeError.memberMissing key.display typeName).withTag "native.new_index")

def call (s : StateId) (native : Native) (args : List Value) : Action (List Value) :=
  match native with
  | .boundMethod o name => callMember s o name args
  | .typeObject c creator => do pure [← c.construct s creator args .script]
  | .bag _ => pure args.reverse
  | native => do .throw (.notCallable (← .view native.typeName))

/-- The length, for an object that supports it. -/
def length (native : Native) : Action Nat :=
  match native with
  | .typeNamespace => .view (·.types.length)
  | .vec2 .. => pure 2
  | .bag items => pure items.length
  | native => do .throw (lengthUnsupported (← .view native.typeName))

/-- The length, if the object says that it has one. -/
def measure (native : Native) : Action Nat := do
  if native.supports .length then native.length
  else .throw (lengthUnsupported (← .view native.typeName))

def vec2Operate (s : StateId) (op : Operator) (left right : Option (Double × Double)) :
    Action Value :=
  match op, left, right with
  | .add, some (x, y), some (u, v) => wrapNative s (.vec2 (x.add u) (y.add v))
  | .unm, some (x, y), _ => wrapNative s (.vec2 x.neg y.neg)
  | .eq, some (x, y), some (u, v) => pure (.bool (x.numEq u && y.numEq v))
  | .lt, some (x, _), some (u, _) => pure (.bool (x.numLt u))
  | .le, some (x, _), some (u, _) => pure (.bool (x.numLe u))
  | op, _, _ => .throw (.typeMismatch s!"Vec2 cannot {op.name}")

def sideText (v : Value) : String := v.toText?.getD v.typeName

/-- Applies an operator of which the object is an operand. -/
def operate (s : StateId) (native : Native) (op : Operator) (left right : Value) : Action Value :=
  match native with
  | .wrapper o _ _ =>
    match op with
    | .eq => do
      pure (.bool (← .view fun w => match w.hostObject? left, w.hostObject? right with
        | some a, some b => a == b
        | _, _ => false))
    | op => do .throw (operatorUnsupported op (← .view (·.classOf o)).name)
  | .vec2 .. => do
    let (l, r) ← .view fun w => (w.vec2? left, w.vec2? right)
    vec2Operate s op l r
  | .bag _ => pure (.text s!"{op.name}({sideText left},{sideText right})")
  | native => do .throw (operatorUnsupported op (← .view native.typeName))

/-- Applies an operator to operands of which the first native one decides. -/
def dispatch (s : StateId) (op : Operator) (left right : Value) : Action Value := do
  match ← .view fun w => (w.nativeOf? left).orElse fun _ => w.nativeOf? right with
  | none => .throw (.typeMismatch "operator dispatched without a native operand")
  | some native =>
    if native.supports op.ability then native.operate s op left right
    else .throw (operatorUnsupported op (← .view native.typeName))

end ScriptBridge.Native
