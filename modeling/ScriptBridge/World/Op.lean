import ScriptBridge.World.Collection
import ScriptBridge.World.Connections

/-!
The elementary changes of a world. All that any program does to a world is done by these, one after
another, so what each of them keeps, every run keeps.
-/

namespace ScriptBridge

/-- What an engine is equipped with once. -/
inductive Equipment where
  | strings (metatable : Ref)
  | files (metatable : Ref)
  | helpers (functions : List Ref)

inductive Op : Type → Type 1 where
  /-- Looks at the world. -/
  | view {β : Type} (look : World → β) : Op β
  -- Heaps of engines.
  | allocate (s : StateId) (cell : Script.Cell) : Op Ref
  | write (r : Ref) (cell : Script.Cell) : Op Unit
  | setRunning (s : StateId) (thread : Ref) : Op Unit
  | equip (s : StateId) (part : Equipment) : Op Unit
  | print (line : String) : Op Unit
  /-- Takes a place for a failure from the pool; says whether there was one. -/
  | takePlace (s : StateId) : Op Bool
  | givePlace (s : StateId) : Op Unit
  -- Bridge values.
  | anchor (target : Ref) : Op AnchorId
  | cacheWrapper (s : StateId) (o : ObjectId) (userdata : Ref) : Op Unit
  -- Host objects.
  | newObject (cls : Class) (name : String) : Op ObjectId
  | rename (o : ObjectId) (name : String) : Op Unit
  | store (o : ObjectId) (property : String) (value : HostValue) : Op Unit
  /-- Marks that a getter, a setter, a method or a slot of an object starts. -/
  | start (o : ObjectId) (signature : String) : Op Unit
  | setParent (o : ObjectId) (parent : Option ObjectId) : Op (Except BridgeError Unit)
  | retire (o : ObjectId) : Op (List ObjectId)
  /-- Marks an object destroyed where it stands in the tree. -/
  | markDestroyed (o : ObjectId) : Op Unit
  | connect (o : ObjectId) (signal : String) (receiver : Receiver) : Op Nat
  | disconnect (o : ObjectId) (signal : String) (key : Option ReceiverKey) : Op Bool
  | disconnectId (o : ObjectId) (id : Nat) : Op Bool
  -- Native objects.
  | newNative (native : Native) : Op NativeId
  /-- A wrapper of an object; it is the owner if there is none yet. -/
  | newWrapper (o : ObjectId) (ownership : Ownership) : Op NativeId
  | setCount (n : NativeId) (count : Int64) : Op Unit
  | dropNative (n : NativeId) : Op (Option Native)
  -- Registries.
  | registerType (cls : Class) (creator : Bool) : Op Nat
  | registerFunction (path : String) (f : HostFunction) : Op Unit
  -- States.
  | openEngine (config : Config) : Op StateId
  | closeEngine (s : StateId) : Op (List NativeId)
  | expire (s : StateId) : Op Unit
  | sweep (s : StateId) : Op (List NativeId)
  | reap : Op (Option (List NativeId))
  -- The log and the program around the bridge.
  | note (entry : Json.Tree) : Op Unit
  | takeLog : Op (List Json.Tree)
  | holdValue (name : String) (value : Value) : Op Unit
  | holdObject (name : String) (o : ObjectId) : Op Unit
  | holdEntries (name : String) (entries : List Entry) : Op Unit
  | letGo (name : String) : Op Bool

namespace World

def lookupType (w : World) (name : String) : Option TypeEntry := w.typeTable.lookup name

def lookupTypeId (w : World) (id : Nat) : Option TypeEntry := w.typeTable.lookupId id

def registerType (w : World) (cls : Class) (creator : Bool) : Nat × World :=
  let (id, table) := w.typeTable.register cls creator
  (id, { w with typeTable := table })

/-- Registers a function; one at the same path that is there already stays. -/
def registerFunction (w : World) (path : String) (f : HostFunction) : World :=
  if w.functions.any (·.1 == path) then w else { w with functions := w.functions ++ [(path, f)] }

def allocate (w : World) (s : StateId) (cell : Script.Cell) : Ref × World :=
  (⟨s, ((w.engine? s).map (·.heap.next)).getD 0⟩,
    w.modifyEngine s fun e => { e with heap := e.heap.add cell })

/-- Changes the content of a place; what kind of cell is there stays. -/
def write (w : World) (r : Ref) (cell : Script.Cell) : World :=
  w.modifyEngine r.owner fun e =>
    { e with heap := e.heap.modify r.index fun old => if old.isLike cell then cell else old }

/-- A new engine: a table of globals and a coroutine that runs. -/
def openEngine (w : World) (config : Config) : StateId × World :=
  let s := w.engines.next
  let heap := (Store.add {} (.table {} none)).add (.thread { progress := .active })
  let engine : Engine :=
    { config := config, heap := heap, globals := ⟨s, 0⟩, main := ⟨s, 1⟩, running := ⟨s, 1⟩ }
  (s, { w with engines := w.engines.add engine })

def equip (w : World) (s : StateId) (part : Equipment) : World :=
  w.modifyEngine s fun e => match part with
    | .strings r => { e with stringMeta := some r }
    | .files r => { e with fileMeta := some r }
    | .helpers rs => { e with helpers := rs }

def newObject (w : World) (cls : Class) (name : String) : ObjectId × World :=
  (w.objects.next,
    { w with objects := w.objects.add { cls := cls, name := name, values := cls.initialValues } })

def store (w : World) (o : ObjectId) (property : String) (value : HostValue) : World :=
  w.modifyObject o fun object => { object with values := object.values.put property value }

def newNative (w : World) (native : Native) : NativeId × World :=
  (w.natives.next, { w with natives := w.natives.add native })

def newWrapper (w : World) (o : ObjectId) (ownership : Ownership) : NativeId × World :=
  let owned := ((w.object? o).map (·.owned)).getD true
  (w.modifyObject o fun object => { object with owned := true }).newNative
    (.wrapper o (!owned) ownership)

def setCount (w : World) (n : NativeId) (count : Int64) : World :=
  { w with natives := w.natives.modify n fun
      | .counter _ => .counter count
      | native => native }

def takePlace (w : World) (s : StateId) : Bool × World :=
  match w.engine? s with
  | some e =>
    if 0 < e.pool then (true, w.modifyEngine s fun e => { e with pool := e.pool - 1 })
    else (false, w)
  | none => (false, w)

def anchor (w : World) (target : Ref) : AnchorId × World :=
  (((w.engine? target.owner).map (·.nextAnchor)).getD 0,
    w.modifyEngine target.owner fun e => e.anchor target w.level)

def cacheWrapper (w : World) (s : StateId) (o : ObjectId) (userdata : Ref) : World :=
  w.modifyEngine s fun e =>
    { e with wrappers := (o, userdata) :: e.wrappers.filter (·.1 != o) }

end World

namespace Holdings

private def put (items : List (String × α)) (name : String) (a : α) : List (String × α) :=
  (name, a) :: items.filter (·.1 != name)

def holdValue (h : Holdings) (name : String) (v : Value) : Holdings :=
  { h with values := put h.values name v }

def holdObject (h : Holdings) (name : String) (o : ObjectId) : Holdings :=
  { h with objects := put h.objects name o }

def holdEntries (h : Holdings) (name : String) (entries : List Entry) : Holdings :=
  { h with entries := put h.entries name entries }

def holds (h : Holdings) (name : String) : Bool :=
  h.values.any (·.1 == name) || h.objects.any (·.1 == name) || h.entries.any (·.1 == name)

def letGo (h : Holdings) (name : String) : Holdings :=
  { values := h.values.filter (·.1 != name)
    objects := h.objects.filter (·.1 != name)
    entries := h.entries.filter (·.1 != name) }

end Holdings

namespace Op

/-- What an operation gives and what it makes of the world. -/
def apply : Op β → World → β × World
  | .view look, w => (look w, w)
  | .allocate s cell, w => w.allocate s cell
  | .write r cell, w => ((), w.write r cell)
  | .setRunning s thread, w =>
    ((), w.modifyEngine s fun e => { e with running := thread })
  | .equip s part, w => ((), w.equip s part)
  | .print line, w => ((), { w with printed := w.printed ++ [line] })
  | .takePlace s, w => w.takePlace s
  | .givePlace s, w => ((), w.modifyEngine s fun e => { e with pool := e.pool + 1 })
  | .anchor target, w => w.anchor target
  | .cacheWrapper s o userdata, w => ((), w.cacheWrapper s o userdata)
  | .newObject cls name, w => w.newObject cls name
  | .rename o name, w => ((), w.modifyObject o fun object => { object with name := name })
  | .store o property value, w => ((), w.store o property value)
  | .start .., w => ((), w)
  | .setParent o parent, w => w.setParent o parent
  | .retire o, w => w.retire o
  | .markDestroyed o, w => ((), w.markDestroyed o)
  | .connect o signal receiver, w => w.connect o signal receiver
  | .disconnect o signal key, w => w.disconnect o signal key
  | .disconnectId o id, w => w.disconnectId o id
  | .newNative native, w => w.newNative native
  | .newWrapper o ownership, w => w.newWrapper o ownership
  | .setCount n count, w => ((), w.setCount n count)
  | .dropNative n, w => w.dropNative n
  | .registerType cls creator, w => w.registerType cls creator
  | .registerFunction path f, w => ((), w.registerFunction path f)
  | .openEngine config, w => w.openEngine config
  | .closeEngine s, w => w.closeEngine s
  | .expire s, w => ((), w.expire s)
  | .sweep s, w => w.sweep s
  | .reap, w => match w.reap with
    | some (natives, w) => (some natives, w)
    | none => (none, w)
  | .note entry, w => ((), { w with log := w.log ++ [entry] })
  | .takeLog, w => (w.log, { w with log := [] })
  | .holdValue name v, w => ((), { w with holdings := w.holdings.holdValue name v })
  | .holdObject name o, w => ((), { w with holdings := w.holdings.holdObject name o })
  | .holdEntries name entries, w =>
    ((), { w with holdings := w.holdings.holdEntries name entries })
  | .letGo name, w => (w.holdings.holds name, { w with holdings := w.holdings.letGo name })

end Op

end ScriptBridge
