import ScriptBridge.Native.Samples
import ScriptBridge.State.Basic

/-!
What the functions of the host's side do: the host library, with which scripts make objects, connect
them and ask for types, and the sample library. Missing arguments count as nil.
-/

namespace ScriptBridge

namespace Action

/-- Tags the failure of a body. -/
def tagged {β : Type} [Holding β] (tag : String) (body : Action β) : Action β :=
  .scope .values handles body fun
    | .ok b => .pure b
    | .error (.failed e) => .throw (e.withTag tag)
    | .error .exhausted => .fail .exhausted

end Action

namespace HostFunction

def argument (args : List Value) (index : Nat) : Value := args.getD index .nil

/-- The failure of an argument that is not of the kind that a function expects. -/
def badArgument (index : Nat) (function expected : String) (found : Value) : BridgeError :=
  .typeMismatch
    s!"bad argument #{index + 1} to `{function}` ({expected} expected, got {found.typeName})"

def hostArgument (args : List Value) (index : Nat) (function : String) :
    Action ObjectId := do
  let v := argument args index
  match ← .view (·.hostObject? v) with
  | some o => pure o
  | none => .throw ((badArgument index function "host object" v).withTag ("host." ++ function))

def textArgument (args : List Value) (index : Nat) (function : String) : Action String :=
  match argument args index with
  | .text s => pure s
  | v => .throw ((badArgument index function "string" v).withTag ("host." ++ function))

/-- The class that a value names: a type object, or the name of a registered class. -/
def classArgument (v : Value) : Action (Class × Bool) := do
  match ← .view (·.typeObject? v) with
  | some found => pure found
  | none =>
    match v with
    | .text name => do
      match ← .view (·.lookupType name) with
      | some e => pure (e.cls, e.creator)
      | none => .throw (.nameNotFound s!"no registered type `{name}`")
    | v => .throw (badArgument 0 "new_object" "type" v)

/-- The arguments of a constructor and the parent of the new object. A host object that comes last is
the parent when no constructor takes all arguments. -/
def splitParent (w : World) (c : Class) (creator : Bool) (args : List Value) :
    List Value × Option ObjectId :=
  if c.acceptsArgs w creator args then (args, none)
  else match args.getLast?.bind w.hostObject? with
    | some parent => (args.dropLast, some parent)
    | none => (args, none)

def makeObject (s : StateId) (args : List Value) : Action Value := do
  let (c, creator) ← classArgument (argument args 0)
  let (args, parent) ← .view fun w => splitParent w c creator (args.drop 1)
  let object ← c.construct s creator args .script
  match parent, ← .view (·.hostObject? object) with
  | some p, some o => .ofExcept (← .perform (.setParent o (some p)))
  | _, _ => pure ()
  pure object

def connectArguments (s : StateId) (args : List Value) : Action Unit := do
  let source ← hostArgument args 0 "connect"
  let signal ← textArgument args 1 "connect"
  .tagged "host.connect" do
    match args.length with
    | 3 => discard <| Host.connect s source signal (argument args 2)
    | 4 => do
      let target ← hostArgument args 2 "connect"
      let slot ← textArgument args 3 "connect"
      discard <| Host.connectSlot source signal target slot
    | n => .throw (.typeMismatch s!"`connect` expects 3 or 4 arguments, got {n}")

def disconnectArguments (args : List Value) : Action Bool := do
  let source ← hostArgument args 0 "disconnect"
  let signal ← textArgument args 1 "disconnect"
  .tagged "host.disconnect" do
    match args.length with
    | 2 => Host.disconnect source signal none
    | 3 => Host.disconnect source signal (some (argument args 2))
    | 4 => do
      let target ← hostArgument args 2 "disconnect"
      let slot ← textArgument args 3 "disconnect"
      Host.disconnectSlot source signal target slot
    | n => .throw (.typeMismatch s!"`disconnect` expects 2 to 4 arguments, got {n}")

/-- The number of a registered class by its name, or its name by its number. -/
def typeAnswer (w : World) (v : Value) : Except BridgeError Value :=
  let found : Except BridgeError (Option Value) := match v with
    | .text name => .ok ((w.lookupType name).map fun e => Value.int (Int64.ofNat e.id))
    | .int id =>
      .ok (if id.toInt < 0 then none
        else (w.lookupTypeId id.toInt.toNat).map fun e => Value.text e.cls.name)
    | v => .error (badArgument 0 "meta_type" "string or integer" v)
  match found with
  | .ok (some answer) => .ok answer
  | .ok none =>
    .error ((BridgeError.nameNotFound s!"no registered type `{v.display}`").withTag "host.meta_type")
  | .error e => .error (e.withTag "host.meta_type")

/-- The type name of a native object, or the name of the kind of any other value. -/
def typeNameOf (w : World) (v : Value) : String :=
  match w.nativeOf? v with
  | some object => object.typeName w
  | none => v.typeName

/-- The names of the properties of a host object, those of derived classes first. -/
def propertyList (s : StateId) (v : Value) : Action Value := do
  match ← .view (·.hostObject? v) with
  | some o => do
    let c ← .view (·.classOf o)
    State.newSequence s (c.propertyNames.map .text)
  | none =>
    .throw ⟨.typeMismatch, s!"cannot iterate a {v.typeName} value", some "host.each"⟩

/-- The sum of all arguments as floats, from left to right. -/
def sum (args : List Value) : Except BridgeError Double :=
  args.foldlM (fun total v => return total.add (← v.toNumber)) .zero

def frameReport (w : World) (s : StateId) : List Value :=
  [.int (Int64.ofNat (State.depth w s)),
    match State.checkBalance w s with
    | .ok () => .bool true
    | .error e => .text e.text]

/-- What a function of the host's side gives for its arguments. -/
def run (s : StateId) (f : HostFunction) (args : List Value) : Action (List Value) :=
  match f with
  | .newObject => do pure [← .tagged "host.new_object" (makeObject s args)]
  | .connect => do
    connectArguments s args
    pure []
  | .connectSlotsByName => do
    let target ← hostArgument args 0 "connect_slots_by_name"
    let made ← .tagged "host.connect_slots_by_name" (Host.connectByName target)
    pure [.int (Int64.ofNat made)]
  | .disconnect => do pure [.bool (← disconnectArguments args)]
  | .metaType => do pure [← .ofExcept (← .view (typeAnswer · (argument args 0)))]
  | .typeOf => do pure [.text (← .view (typeNameOf · (argument args 0)))]
  | .propertyNames => do pure [← propertyList s (argument args 0)]
  | .fail => .throw (.typeMismatch "bad value!")
  | .failTagged => .throw ⟨.nameNotFound, "nothing here", some "test.tagged"⟩
  | .vec2 => do pure [← wrapNative s (← .ofExcept (Native.sample "Vec2" args))]
  | .native => do
    let name ← .ofExcept (argument args 0).toText
    pure [← wrapNative s (← .ofExcept (Native.sample name (args.drop 1)))]
  | .add => do pure [.number (← .ofExcept (sum args))]
  | .echo => pure args
  | .count => pure [.int (Int64.ofNat args.length)]
  | .frames => .view (frameReport · s)
  | .call => (argument args 0).call (args.drop 1)
  | .exec => do State.execute s (← .ofExcept (argument args 0).toText)
  | .get => do pure [← State.get s (← .ofExcept (argument args 0).toText)]
  | .log => do
    let shown ← .ofExcept (← .view fun w => args.mapM w.showValue)
    .perform (.note (.object [("script", .list shown)]))
    pure []

end HostFunction

end ScriptBridge
