import ScriptBridge.World.Basic

/-!
The tree of host objects: parents, children, and what destruction does to them.
-/

namespace ScriptBridge

/-- A text that tells an object's state, for people. -/
def HostObject.description (o : HostObject) : String :=
  "ObjectCore \x7b name: " ++ Text.quoted o.name ++
    ", connections: " ++ toString o.connections.length ++
    ", children: " ++ toString o.children.length ++ ", destroyed: " ++ toString o.destroyed ++
    ", owned: " ++ toString o.owned ++ " \x7d"

namespace World

def parentOf (w : World) (o : ObjectId) : Option ObjectId := (w.object? o).bind (·.parent)

def childrenOf (w : World) (o : ObjectId) : List ObjectId :=
  ((w.object? o).map (·.children)).getD []

/-- An object that is gone counts as destroyed. -/
def isDestroyed (w : World) (o : ObjectId) : Bool := ((w.object? o).map (·.destroyed)).getD true

def nameOf (w : World) (o : ObjectId) : String := ((w.object? o).map (·.name)).getD ""

/-- Fails on a destroyed object. -/
def ensureAlive (w : World) (o : ObjectId) : Except BridgeError Unit :=
  if w.isDestroyed o then .error (.destroyed (w.classOf o).name) else .ok ()

/-- The object itself, its parent, the parent of that, and so on, at most `n` of them. -/
def ancestry (w : World) : Nat → ObjectId → List ObjectId
  | 0, _ => []
  | n + 1, o => o :: ((w.parentOf o).map (w.ancestry n)).getD []

/-- A bound on the length of a path from an object to the root of its tree. -/
def treeBound (w : World) : Nat := w.objects.next + 1

/-- All descendants in pre-order, to a depth of at most `n`. -/
def descendantsTo (w : World) : Nat → ObjectId → List ObjectId
  | 0, _ => []
  | n + 1, o => (w.childrenOf o).flatMap fun child => child :: w.descendantsTo n child

/-- All descendants in pre-order. -/
def descendants (w : World) (o : ObjectId) : List ObjectId := w.descendantsTo w.treeBound o

/-- The first descendant with a name, to a depth of at most `n`. -/
def findChildTo (w : World) (name : String) : Nat → ObjectId → Option ObjectId
  | 0, _ => none
  | n + 1, o =>
    (w.childrenOf o).findSome? fun child =>
      if w.nameOf child = name then some child else w.findChildTo name n child

/-- The first descendant with a name: a child comes before its own descendants. -/
def findChild (w : World) (o : ObjectId) (name : String) : Option ObjectId :=
  w.findChildTo name w.treeBound o

/-- Takes an object away from its parent. -/
def detach (w : World) (o : ObjectId) : World :=
  let w' := w.modifyObject o fun object => { object with parent := none }
  match w.parentOf o with
  | none => w'
  | some old =>
    w'.modifyObject old fun object => { object with children := object.children.filter (· != o) }

/-- Makes an object the last child of another one. -/
def attach (w : World) (o parent : ObjectId) : World :=
  (w.modifyObject o fun object => { object with parent := some parent }).modifyObject parent
    fun object => { object with children := object.children ++ [o] }

/-- Why an object cannot get a parent. -/
def checkParent (w : World) (o : ObjectId) (parent : Option ObjectId) : Except BridgeError Unit := do
  w.ensureAlive o
  match parent with
  | none => pure ()
  | some p =>
    w.ensureAlive p
    if (w.ancestry w.treeBound p).contains o then
      throw ⟨.typeMismatch, s!"`{(w.classOf o).name}` object cannot become its own ancestor",
        some "reflect.parent"⟩

/-- Gives an object another parent or none, unless that is not possible. -/
def setParent (w : World) (o : ObjectId) (parent : Option ObjectId) :
    Except BridgeError Unit × World :=
  match w.checkParent o parent with
  | .error e => (.error e, w)
  | .ok () =>
    let w := w.detach o
    (.ok (), match parent with
      | none => w
      | some p => w.attach o p)

/-- Cuts the links between an object and its children. -/
def releaseChildren (w : World) (o : ObjectId) : World :=
  let w' := (w.childrenOf o).foldl
    (fun w child => w.modifyObject child fun object => { object with parent := none }) w
  w'.modifyObject o fun object => { object with children := [] }

/-- Marks an object destroyed; it loses its connections. -/
def markDestroyed (w : World) (o : ObjectId) : World :=
  w.modifyObject o fun object =>
    if object.destroyed then object else { object with destroyed := true, connections := [] }

/-- Destroys one object: it leaves the tree, and its children become roots, which are the result. -/
def retire (w : World) (o : ObjectId) : List ObjectId × World :=
  let w := (w.markDestroyed o).detach o
  (w.childrenOf o, w.releaseChildren o)

end World

end ScriptBridge
