import ScriptBridge.Host.Marshal
import ScriptBridge.Host.Members

/-!
Making objects of a class from script arguments.
-/

namespace ScriptBridge

namespace Class

def chooseConstructor (w : World) (c : Class) (args : List Value) : Option Constructor :=
  selectOverload w Constructor.params c.constructors args

/-- Whether a constructor, or the creator of plain instances, takes the arguments. -/
def acceptsArgs (w : World) (c : Class) (creator : Bool) (args : List Value) : Bool :=
  (creator && args.isEmpty) || (c.chooseConstructor w args).isSome

/-- Makes an object: without arguments by the creator if there is one, otherwise by the constructor
that the arguments select. -/
def instantiate (c : Class) (creator : Bool) (args : List Value) : Action ObjectId :=
  if creator && args.isEmpty then .perform (.newObject c "")
  else do
    match ← .view (chooseConstructor · c args) with
    | some constructor => do
      constructor.creation.run c (← marshalArgs constructor.params args)
    | none =>
      .throw ⟨.typeMismatch, s!"no constructor of `{c.name}` accepts ({Value.typeNames args})",
        some "reflect.construct"⟩

/-- Makes an object and wraps it. -/
def construct (s : StateId) (c : Class) (creator : Bool) (args : List Value)
    (ownership : Ownership) : Action Value := do
  wrapObject s (← c.instantiate creator args) ownership

end Class

end ScriptBridge
