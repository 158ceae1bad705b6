import ScriptBridge.World.Op

/-!
Sample classes and functions, and the world in which they are registered.
-/

namespace ScriptBridge

namespace Samples

private def property (name : String) (type : HostType) (initial : Option HostValue)
    (isWritable : Bool) : Property :=
  { name := name, type := type, getter := .get name, initial := initial,
    setter := if isWritable then some (.put name) else none }

private def method (name : String) (params : List HostType) (result : HostType)
    (body : Behaviour) : Member :=
  { name := name, kind := .method, params := params, result := result, body := some body }

private def slot (name : String) (params : List HostType) (body : Behaviour) : Member :=
  { name := name, kind := .slot, params := params, body := some body }

private def signal (name : String) (params : List HostType) : Member :=
  { name := name, kind := .signal, params := params, body := none }

private def text (s : String) : Behaviour := .const (.text s)

/-- An object with a value that says when it changes. -/
def myObject : Class :=
  .extend (some .root)
    { name := "Test::MyObject"
      properties :=
        [property "value" .int (some (.int 0)) false,
         property "label" .string (some (.text "")) true]
      members :=
        [signal "valueChanged" [.int], slot "setValue" [.int] (.putEmit "value" "valueChanged"),
         method "foo" [.double] .double (.multiply (.ofInt 42)),
         method "foo" [.string, .int] .string .repeatText]
      constructors := [⟨[.int, .object], .assign [some (.property "value"), none]⟩] }

/-- An object whose slots note what they are given. -/
def sink : Class :=
  .extend (some .root)
    { name := "Test::Sink"
      members :=
        [slot "record" [.int] .log, slot "ping" [] .log, slot "rename" [.string] .rename,
         slot "any" [.variant] .log,
         slot "broken" [.int] (.fail (.typeMismatch "sink is broken")),
         slot "on_source_valueChanged" [.int] .log, slot "on_ghost_destroyed" [] .log] }

private def wideProperties : List Property :=
  [property "b" .bool (some (.bool false)) true, property "i" .int (some (.int 0)) true,
   property "d" .double (some (.double .zero)) true, property "s" .string (some (.text "")) true,
   property "o" .object (some (.object none)) true,
   property "n" .native (some (.native none)) true, property "l" .list (some (.list [])) true,
   property "v" .variant none true, property "z" .void none true,
   { name := "bad", type := .int,
     getter := .fail ⟨.notCallable, "no reading", some "wide.get"⟩,
     setter := some (.fail ⟨.stateClosed, "no writing", none⟩) },
   { name := "me", type := .object, getter := .self }]

private def wideMembers : List Member :=
  [method "tb" [.bool] .bool (.arg 0), method "ti" [.int] .int (.arg 0),
   method "td" [.double] .double (.arg 0), method "ts" [.string] .string (.arg 0),
   method "to" [.object] .object (.arg 0), method "tn" [.native] .native (.arg 0),
   method "tl" [.list] .list (.arg 0), method "tv" [.variant] .variant (.arg 0),
   method "tz" [.void] .void .nothing, method "all" [.int, .double, .string] .list .list,
   method "fail" [] .void (.fail ⟨.signatureMismatch, "wide failed", some "wide.fail"⟩),
   slot "kill" [] .destroy, method "pick" [.int] .string (text "int"),
   method "pick" [.double] .string (text "double"),
   method "pick" [.string] .string (text "string"), method "pick" [.bool] .string (text "bool"),
   method "pick" [.object] .string (text "object"),
   method "pick" [.native] .string (text "native"), method "pick" [.list] .string (text "list"),
   method "pick" [.variant] .string (text "variant"),
   method "pair" [.string, .int] .string (text "string,int"),
   method "pair" [.int, .string] .string (text "int,string"),
   method "pair" [.double, .double] .string (text "double,double"),
   signal "sent" [.int, .string, .variant], signal "sent" [.list],
   slot "relay" [.int] (.emit "fired"), signal "fired" [.int], signal "moved" [.object, .native]]

/-- An object with a property and a method of each type. -/
def wide : Class :=
  .extend (some .root)
    { name := "Test::Wide"
      properties := wideProperties
      members := wideMembers
      constructors :=
        [⟨[.string], .assign [some (.property "s")]⟩, ⟨[.int], .assign [some (.property "i")]⟩,
         ⟨[.string, .string], .assign [some (.property "s"), some .objectName]⟩,
         ⟨[.bool, .bool], .fail ⟨.notAssignable, "no such pair", none⟩⟩] }

/-- A class that replaces some of what it inherits. -/
def leaf : Class :=
  .extend (some wide)
    { name := "Test::Leaf"
      properties :=
        [property "i" .double (some (.double (.ofRatio false 3 2))) true,
         property "extra" .string (some (.text "leaf")) false]
      members :=
        [method "pick" [.string] .string (text "leaf string"), signal "fired" [.string],
         method "ti" [.string] .string (.arg 0)]
      constructors := [⟨[], .assign []⟩] }

/-- A class without ancestors. -/
def bare : Class :=
  .extend none
    { name := "Test::Bare"
      properties := [property "objectName" .int (some (.int 7)) false]
      members := [signal "go" []] }

/-- All sample classes, and whether they have a creator. -/
def classes : List (Class × Bool) :=
  [(.root, false), (myObject, true), (sink, false), (wide, true), (leaf, false), (bare, true)]

/-- A world in which the sample classes and functions are registered. -/
def world : World :=
  let types := classes.foldl (fun (w : World) (c, creator) => (w.registerType c creator).2) {}
  HostFunction.samples.foldl (fun w (name, f) => w.registerFunction ("test." ++ name) f) types

end Samples

end ScriptBridge
