import ScriptBridge.Config
import ScriptBridge.Host.Class
import ScriptBridge.Json.Tree
import ScriptBridge.Script.Frame
import ScriptBridge.World.Store
import ScriptBridge.World.Types

/-!
Everything that programs act on: host objects and native objects, the engines of all states, the
registries, and what the program around the bridge keeps hold of.
-/

namespace ScriptBridge

/-- Who destroys a wrapped object: the host, or the collection of its wrapper. -/
inductive Ownership where
  | native
  | script
deriving DecidableEq, Repr

/-- Who receives a signal. -/
inductive Receiver where
  /-- A script value, called in a state. -/
  | script (state : StateId) (callable : Value)
  /-- A slot of an object, given the first `arity` arguments. -/
  | slot (target : ObjectId) (signature : String) (body : Behaviour) (arity : Nat)

structure Connection where
  id : Nat
  /-- The signature of the signal. -/
  signal : String
  receiver : Receiver

/-- A host object. -/
structure HostObject where
  cls : Class
  name : String := ""
  values : Contents := []
  connections : List Connection := []
  nextConnection : Nat := 0
  parent : Option ObjectId := none
  children : List ObjectId := []
  destroyed : Bool := false
  /-- Whether a wrapper owns the object. -/
  owned : Bool := false

/-- A native object: what a userdata of the bridge holds. Those that are not the bridge's own are
samples and stand for any others. -/
inductive Native where
  /-- A wrapped host object; at most one wrapper of an object is the owner. -/
  | wrapper (object : ObjectId) (owning : Bool) (ownership : Ownership)
  /-- The methods of one name of an object. -/
  | boundMethod (object : ObjectId) (name : String)
  /-- A class that can be called; with `creator` a call without arguments makes a plain instance. -/
  | typeObject (cls : Class) (creator : Bool)
  /-- All registered classes by name. -/
  | typeNamespace
  | vec2 (x y : Double)
  | counter (count : Int64)
  | plain
  /-- A plain object that says it descends from `Vec2`. -/
  | impostor
  /-- A plain object that says it supports everything. -/
  | liar
  | bag (items : List Value)

/-- Something that keeps an engine's object alive while values refer to it. -/
structure Anchor where
  id : AnchorId
  target : Ref
  /-- The scope in which the anchor was made, while that scope is open. -/
  scope : Option Nat

/-- An engine and what the bridge knows of it. -/
structure Engine where
  config : Config
  heap : Store Script.Cell := {}
  /-- The table of global variables. -/
  globals : Ref
  /-- The coroutine in which chunks run. -/
  main : Ref
  /-- The coroutine that runs. -/
  running : Ref
  /-- The metatable of strings, if the string library is there. -/
  stringMeta : Option Ref := none
  /-- The metatable of files, if the library of files is there. -/
  fileMeta : Option Ref := none
  /-- Script functions that read a member, assign one, and call a value. -/
  helpers : List Ref := []
  /-- How many operations of the bridge are in progress. -/
  depth : Nat := 0
  anchors : List Anchor := []
  nextAnchor : AnchorId := 0
  /-- The count of anchors, which goes up with each anchor made and down with each one released. -/
  live : Nat := 0
  /-- What released anchors still hold until the next collection. -/
  stale : List Ref := []
  /-- The userdata of wrapped host objects, as long as they are alive. -/
  wrappers : List (ObjectId × Ref) := []
  /-- Places for failures that native functions have left unused. -/
  pool : Nat := 0

/-- An entry of a table, as it was when the table was read. -/
structure Entry where
  table : Value
  key : Value
  value : Value

/-- What the program around the bridge keeps hold of, by name. -/
structure Holdings where
  values : List (String × Value) := []
  objects : List (String × ObjectId) := []
  entries : List (String × List Entry) := []

structure World where
  typeTable : TypeTable := {}
  /-- The functions that every new state gets, by path. -/
  functions : List (String × HostFunction) := []
  objects : Store HostObject := {}
  natives : Store Native := {}
  engines : Store Engine := {}
  log : List Json.Tree := []
  /-- What scripts have printed, line by line. -/
  printed : List String := []
  holdings : Holdings := {}
  /-- How many scopes are open. -/
  level : Nat := 0

namespace World

/-- The registered classes, in order. -/
def types (w : World) : List TypeEntry := w.typeTable.entries

def engine? (w : World) (s : StateId) : Option Engine := w.engines.get? s

def isOpen (w : World) (s : StateId) : Bool := (w.engine? s).isSome

def object? (w : World) (o : ObjectId) : Option HostObject := w.objects.get? o

def native? (w : World) (n : NativeId) : Option Native := w.natives.get? n

def cell? (w : World) (r : Ref) : Option Script.Cell := do (← w.engine? r.owner).heap.get? r.index

/-- The content of a table. -/
def tableAt (w : World) (r : Ref) : Script.Table :=
  match w.cell? r with
  | some (.table content _) => content
  | _ => {}

def metatableAt (w : World) (r : Ref) : Option Ref :=
  match w.cell? r with
  | some (.table _ metatable) => metatable
  | _ => none

def modifyEngine (w : World) (s : StateId) (f : Engine → Engine) : World :=
  { w with engines := w.engines.modify s f }

def modifyObject (w : World) (o : ObjectId) (f : HostObject → HostObject) : World :=
  { w with objects := w.objects.modify o f }

/-- The class of an object. -/
def classOf (w : World) (o : ObjectId) : Class := ((w.object? o).map (·.cls)).getD Class.root

/-- The number of the native object that a value refers to. -/
def nativeId? (w : World) : Value → Option NativeId
  | .handle h =>
    match h.kind, w.cell? h.target with
    | .userdata, some (.native n) => some n
    | _, _ => none
  | _ => none

def nativeOf? (w : World) (v : Value) : Option Native := (w.nativeId? v).bind w.native?

/-- The host object that a value wraps. -/
def hostObject? (w : World) (v : Value) : Option ObjectId :=
  match w.nativeOf? v with
  | some (.wrapper o _ _) => some o
  | _ => none

end World

end ScriptBridge
