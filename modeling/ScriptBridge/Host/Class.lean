import ScriptBridge.Host.Value

/-!
Classes of host objects: properties, methods, slots, signals and constructors, with the classes they
inherit from. Look-ups go from the class itself to its ancestors, so a derived class comes first.
-/

namespace ScriptBridge

/-- What a getter, a setter, a method, a slot or a constructor does. It is given the object and
the arguments; where nothing else is said the result is void. The list stands for any code of the
host: worlds hold classes and programs act on worlds, so a class cannot hold a program. -/
inductive Behaviour where
  | nothing
  /-- Gives a fixed value. -/
  | const (value : HostValue)
  /-- Gives an argument. -/
  | arg (n : Nat)
  /-- Gives all arguments as a list. -/
  | list
  /-- Gives what is stored under a name. -/
  | get (property : String)
  /-- Stores the first argument under a name. -/
  | put (property : String)
  /-- Stores the first argument and emits a signal with it when that changes what is stored. -/
  | putEmit (property signal : String)
  /-- Emits a signal with all arguments. -/
  | emit (signal : String)
  /-- Notes the call in the log. -/
  | log
  /-- Gives the first argument times a number. -/
  | multiply (factor : Double)
  /-- Gives the first argument repeated as often as the second says. -/
  | repeatText
  /-- Gives the object itself. -/
  | self
  /-- Destroys the object. -/
  | destroy
  /-- Fails. -/
  | fail (e : BridgeError)
  /-- Gives the object's name. -/
  | objectName
  /-- Takes the first argument as the object's name. -/
  | rename
  /-- Gives the object's parent. -/
  | parent
  /-- Takes the first argument as the object's parent. -/
  | setParent
  /-- Gives the descendant with the name that is the first argument. -/
  | findChild
deriving Inhabited

structure Property where
  name : String
  type : HostType
  getter : Behaviour
  /-- A property without a setter is read-only. -/
  setter : Option Behaviour := none
  /-- What a new object stores under the property's name. -/
  initial : Option HostValue := none

inductive MemberKind where
  | method
  | slot
  | signal
deriving DecidableEq, Repr

def MemberKind.title : MemberKind → String
  | .method => "Method"
  | .slot => "Slot"
  | .signal => "Signal"

/-- A method, a slot or a signal; signals have no body. -/
structure Member where
  name : String
  kind : MemberKind
  params : List HostType
  result : HostType := .void
  body : Option Behaviour

namespace Member

def signature (m : Member) : Signature := ⟨m.name, m.params⟩

/-- The signature in its normal form. -/
def text (m : Member) : String := m.signature.text

end Member

/-- Where a constructor puts an argument. -/
inductive Target where
  | property (name : String)
  | objectName
deriving DecidableEq, Repr

/-- What a constructor does with its arguments. -/
inductive Creation where
  /-- Makes an object and puts the arguments in their places, in order; `none` drops one. -/
  | assign (targets : List (Option Target))
  | fail (e : BridgeError)

structure Constructor where
  params : List HostType
  creation : Creation

/-- What one class declares. -/
structure Declaration where
  name : String
  properties : List Property := []
  members : List Member := []
  constructors : List Constructor := []

/-- A class: its own declaration and those of its ancestors, the nearest first. -/
structure Class where
  own : Declaration
  ancestors : List Declaration := []

/-- What an object has stored, by name. -/
abbrev Contents := List (String × HostValue)

/-- Stores a value under a name, in the place of an older one. -/
def Contents.put (contents : Contents) (name : String) (value : HostValue) : Contents :=
  if contents.any (·.1 == name) then
    contents.map fun (n, v) => if n == name then (n, value) else (n, v)
  else contents ++ [(name, value)]

namespace Class

def name (c : Class) : String := c.own.name

def superclass (c : Class) : Option Class :=
  match c.ancestors with
  | [] => none
  | own :: ancestors => some ⟨own, ancestors⟩

/-- The declarations of the class and of all its ancestors. -/
def lineage (c : Class) : List Declaration := c.own :: c.ancestors

/-- A class with a declaration of its own below another one. -/
def extend (base : Option Class) (own : Declaration) : Class :=
  ⟨own, (base.map lineage).getD []⟩

/-- Whether the class or one of its ancestors has a name. -/
def inherits (c : Class) (name : String) : Bool := c.lineage.any (·.name == name)

def property? (c : Class) (name : String) : Option Property :=
  c.lineage.findSome? fun d => d.properties.find? (·.name == name)

/-- The names of all properties, each as often as it is declared. -/
def propertyNames (c : Class) : List String :=
  c.lineage.flatMap fun d => d.properties.map (·.name)

/-- All methods, slots and signals. -/
def members (c : Class) : List Member := c.lineage.flatMap (·.members)

def membersNamed (c : Class) (name : String) : List Member := c.members.filter (·.name == name)

/-- The first member by its name, or by its signature in any spacing. -/
def member? (c : Class) (nameOrSignature : String) (kind : Option MemberKind) : Option Member :=
  let wanted := Signature.normalize nameOrSignature
  let bySignature := wanted.toList.contains '('
  c.members.find? fun m =>
    (kind.all fun k => m.kind = k) && (if bySignature then m.text else m.name) == wanted

def signal? (c : Class) (nameOrSignature : String) : Option Member :=
  c.member? nameOrSignature (some .signal)

/-- What a signal can be connected to: a slot, or else a method. -/
def slot? (c : Class) (nameOrSignature : String) : Option Member :=
  (c.member? nameOrSignature (some .slot)).orElse fun _ =>
    c.member? nameOrSignature (some .method)

def slots (c : Class) : List Member := c.members.filter (·.kind == .slot)

/-- The constructors of the class itself; constructors are not inherited. -/
def constructors (c : Class) : List Constructor := c.own.constructors

def memberCount (c : Class) : Nat :=
  c.lineage.foldl (fun n d => n + d.properties.length + d.members.length) 0

private def quotedList (items : List String) : String :=
  "[" ++ ", ".intercalate (items.map Text.quoted) ++ "]"

def description (c : Class) : String :=
  "MetaObject \x7b class_name: " ++ Text.quoted c.name ++
    ", superclass: " ++ (c.superclass.elim "None" fun s => "Some(" ++ Text.quoted s.name ++ ")") ++
    ", properties: " ++ quotedList (c.own.properties.map (·.name)) ++
    ", methods: " ++ quotedList (c.own.members.map (·.text)) ++
    ", constructors: " ++ toString c.own.constructors.length ++ " \x7d"

/-- What a new object stores at first: what a derived class says takes the place of what its
ancestors say. -/
def initialValues (c : Class) : Contents :=
  (c.lineage.reverse.flatMap (·.properties)).foldl (fun contents p =>
    match p.initial with
    | some value => contents.put p.name value
    | none => contents) []

/-- The class that all classes with a name and a parent derive from. -/
def root : Class :=
  { own :=
      { name := "Object"
        properties :=
          [{ name := "objectName", type := .string, getter := .objectName, setter := some .rename },
           { name := "parent", type := .object, getter := .parent, setter := some .setParent }]
        members :=
          [{ name := "findChild", kind := .method, params := [.string], result := .object,
             body := some .findChild },
           { name := "destroyed", kind := .signal, params := [], body := none }]
        constructors :=
          [⟨[], .assign []⟩, ⟨[.string], .assign [some .objectName]⟩] } }

end Class

end ScriptBridge
