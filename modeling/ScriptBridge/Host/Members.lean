import ScriptBridge.Host.Signal
import ScriptBridge.World.Show

/-!
What the members of host objects do when they are called, and what the end of a native object means
for the host object that it wraps.
-/

namespace ScriptBridge

/-- Ends a native object that nothing holds any more. With an owning wrapper that was made for a
script goes its object, unless that has a parent or has been destroyed already. -/
def releaseNative (n : NativeId) : Action Unit := do
  match ← .perform (.dropNative n) with
  | some (.wrapper o true .script) => do
    let w ← .view fun w => ((w.parentOf o).isNone, w.isDestroyed o)
    if w.1 && !w.2 then .ask (.destroy o) else pure ()
  | _ => pure ()

namespace Host

/-- What an object has stored under a name. -/
def stored (w : World) (o : ObjectId) (property : String) : Option HostValue :=
  (w.object? o).bind fun object => (object.values.find? (·.1 == property)).map (·.2)

/-- Stores a value under a name; native objects that only the old value held end. -/
def put (o : ObjectId) (property : String) (value : HostValue) : Action Unit := do
  let old ← .view (stored · o property)
  .perform (.store o property value)
  ((old.map (·.natives)).getD []).forM releaseNative

/-- Whether two host values are shown differently. -/
def differ (w : World) (a b : Option HostValue) : Bool :=
  let text (v : Option HostValue) : Option String :=
    v.map fun v => match w.showHostValue v with
      | .ok tree => tree.text
      | .error _ => ""
  text a != text b

/-- A text repeated at most a thousand times. -/
def repeated (s : String) (count : Int64) : String :=
  String.join (List.replicate (min 1000 count.toInt.toNat) s)

end Host

/-- Does what a member does; `signature` names it in the log. -/
def Behaviour.run (o : ObjectId) (signature : String) (b : Behaviour) (args : List HostValue) :
    Action HostValue := do
  .perform (.start o signature)
  match b with
  | .nothing => pure .void
  | .const value => pure value
  | .arg n => pure (args.getD n .void)
  | .list => pure (.list args)
  | .get property => do pure ((← .view (Host.stored · o property)).getD .void)
  | .put property => do
    Host.put o property (args.getD 0 .void)
    pure .void
  | .putEmit property signal => do
    let value := args.getD 0 .void
    let old ← .view (Host.stored · o property)
    Host.put o property value
    if ← .view (Host.differ · old (some value)) then Host.emit o signal [value]
    pure .void
  | .emit signal => do
    Host.emit o signal args
    pure .void
  | .log => do
    let shown ← .ofExcept (← .view (·.showHostValues args))
    .perform (.note (.object
      [("args", .list shown), ("obj", .string (← .view (·.nameOf o))), ("sig", .string signature)]))
    pure .void
  | .multiply factor => pure (.double (((args.getD 0 .void).asDouble.getD .zero).mul factor))
  | .repeatText =>
    pure (.text (Host.repeated ((args.getD 0 .void).asText.getD "")
      ((args.getD 1 .void).asInt.getD 0)))
  | .self => pure (.object (some o))
  | .destroy => do
    .ask (.destroy o)
    pure .void
  | .fail e => .throw e
  | .objectName => do pure (.text (← .view (·.nameOf o)))
  | .rename => do
    .perform (.rename o ((args.getD 0 .void).asText.getD ""))
    pure .void
  | .parent => do pure (.object (← .view (·.parentOf o)))
  | .setParent => do
    .ofExcept (← .perform (.setParent o (args.getD 0 .void).asObject))
    pure .void
  | .findChild => do
    pure (.object (← .view fun w => w.findChild o ((args.getD 0 .void).asText.getD "")))

namespace Property

def read (p : Property) (o : ObjectId) : Action HostValue := p.getter.run o p.name []

end Property

/-- Makes an object as a constructor says. -/
def Creation.run (c : Class) (creation : Creation) (args : List HostValue) : Action ObjectId :=
  match creation with
  | .fail e => .throw e
  | .assign targets => do
    let o ← .perform (.newObject c "")
    (targets.zip args).forM fun (target, value) =>
      match target with
      | none => pure ()
      | some .objectName => .perform (.rename o (value.asText.getD ""))
      | some (.property name) => .perform (.store o name value)
    pure o

/-- Destroys an object. It emits `destroyed()` if its class has that signal, then leaves the tree,
and then its former children are destroyed in order. -/
def destroyObject (o : ObjectId) : Action Unit := do
  if ← .view (·.isDestroyed o) then pure ()
  else
    if ← .view fun w => ((w.classOf o).signal? "destroyed()").isSome then
      discard <| .attempt (emitSignal o "destroyed()" [])
    let children ← .perform (.retire o)
    children.forM fun child => .ask (.destroy child)

end ScriptBridge
