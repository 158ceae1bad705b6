import ScriptBridge.Action
import ScriptBridge.World.Tree

/-!
Signals and their receivers. An emission reaches the receivers that are connected when it begins,
each once and in the order of connection; one that fails does not stop the others.
-/

namespace ScriptBridge

namespace Class

/-- A signal by name or signature. -/
def findSignal (c : Class) (signal : String) : Except BridgeError Member :=
  match c.signal? signal with
  | some m => .ok m
  | none => .error (.nameNotFound s!"no signal `{signal}` in `{c.name}`")

/-- What a signal can be connected to, by name or signature. -/
def findSlot (c : Class) (slot : String) : Except BridgeError Member :=
  match c.slot? slot with
  | some m => .ok m
  | none => .error (.nameNotFound s!"no slot `{slot}` in `{c.name}`")

end Class

namespace Value

/-- Whether a value can be connected to a signal. -/
def isReceiver (v : Value) : Bool :=
  match v with
  | .handle h => h.kind != .thread
  | _ => false

end Value

/-- Hands a signal to its receivers; the first failure of one is the failure of the emission. -/
def emitSignal (o : ObjectId) (signal : String) (args : List HostValue) : Action Unit := do
  let receivers ← .view (·.connectionsOf o signal)
  let outcomes ← receivers.mapM fun c => .attempt (.ask (.deliver c o args))
  match outcomes.findSome? fun
    | .error e => some e
    | .ok () => none with
  | some e => .throw e
  | none => pure ()

namespace Host

/-- Emits a signal by name or signature. -/
def emit (o : ObjectId) (signal : String) (args : List HostValue) : Action Unit := do
  let member ← .ofExcept (← .view fun w => (w.classOf o).findSignal signal)
  .ofExcept (← .view (·.ensureAlive o))
  if args.length ≠ member.params.length then
    .throw <| .typeMismatch
      s!"signal `{member.text}` expects {member.params.length} argument(s), got {args.length}"
  else emitSignal o member.text args

/-- Connects a signal to a script value that is called in a state. -/
def connect (s : StateId) (o : ObjectId) (signal : String) (callable : Value) : Action Nat := do
  let member ← .ofExcept (← .view fun w => (w.classOf o).findSignal signal)
  if !callable.isReceiver then
    .throw ⟨.notCallable, s!"cannot connect `{member.text}` to a {callable.typeName} value", none⟩
  else do
    .ofExcept (← .view (·.ensureAlive o))
    .perform (.connect o member.text (.script s callable))

/-- Connects a signal to a slot or method of another object, which gets as many arguments as it
declares. -/
def connectSlot (o : ObjectId) (signal : String) (target : ObjectId) (slot : String) :
    Action Nat := do
  let member ← .ofExcept (← .view fun w => (w.classOf o).findSignal signal)
  let slotMember ← .ofExcept (← .view fun w => (w.classOf target).findSlot slot)
  if !Signature.compatible member.params slotMember.params then
    .throw ⟨.signatureMismatch,
      s!"slot `{slotMember.text}` is not compatible with signal `{member.text}`", none⟩
  else match slotMember.body with
    | none => .throw (.notCallable slotMember.text)
    | some body => do
      .ofExcept (← .view (·.ensureAlive o))
      .ofExcept (← .view (·.ensureAlive target))
      .perform (.connect o member.text
        (.slot target slotMember.text body slotMember.params.length))

/-- Disconnects a script value from a signal, or all receivers. -/
def disconnect (o : ObjectId) (signal : String) (callable : Option Value) : Action Bool := do
  let member ← .ofExcept (← .view fun w => (w.classOf o).findSignal signal)
  .perform (.disconnect o member.text (callable.map .script))

def disconnectSlot (o : ObjectId) (signal : String) (target : ObjectId) (slot : String) :
    Action Bool := do
  let member ← .ofExcept (← .view fun w => (w.classOf o).findSignal signal)
  let slotMember ← .ofExcept (← .view fun w => (w.classOf target).findSlot slot)
  .perform (.disconnect o member.text (some (.slot target slotMember.text)))

end Host

/-- What follows a start and an underscore in a text. -/
def afterName (name rest : String) : Option String := do
  let rest ← Text.dropStart name.toList rest.toList
  String.ofList <$> Text.dropStart ['_'] rest

namespace World

/-- The object and signal that a slot named `on_<object>_<signal>` stands for, among candidates. -/
def namedSignal (w : World) (slot : Member) (candidates : List ObjectId) :
    Option (ObjectId × Member) := do
  let rest ← Text.dropStart "on_".toList slot.name.toList
  candidates.findSome? fun o => do
    let name := w.nameOf o
    if name.isEmpty then none
    else do
      let signal ← (w.classOf o).signal? (← afterName name (String.ofList rest))
      if Signature.compatible signal.params slot.params then some (o, signal) else none

end World

namespace Host

/-- Connects the slots of an object to the signals of its descendants that their names tell. The
number of connections is the result. -/
def connectByName (target : ObjectId) : Action Nat := do
  .ofExcept (← .view (·.ensureAlive target))
  let candidates ← .view (·.descendants target)
  let slots ← .view fun w => (w.classOf target).slots
  let made ← slots.mapM fun slot => do
    match ← .view (·.namedSignal slot candidates) with
    | some (o, signal) => do
      discard <| connectSlot o signal.text target slot.text
      pure 1
    | none => pure 0
  pure (made.foldl (· + ·) 0)

end Host

end ScriptBridge
