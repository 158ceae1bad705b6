import Mathlib.Algebra.Order.Ring.Nat
import ScriptBridge.Host.Samples

/-!
The properties of a class and of the classes that it inherits from. A look-up finds the nearest one of
a name; the list of names has a name once for each class that declares it.
-/

namespace ScriptBridge.Class

/-- All properties in the order of look-ups. -/
def properties (c : Class) : List Property := c.lineage.flatMap (·.properties)

/-- How often a class and its ancestors declare a property of a name. -/
def propertyDeclarations (c : Class) (name : String) : Nat :=
  (c.lineage.map fun d => d.properties.countP (·.name == name)).sum

variable {c : Class} {name : String}

theorem property?_eq_find? (c : Class) (name : String) :
    c.property? name = c.properties.find? (·.name == name) :=
  List.find?_flatMap.symm

theorem propertyNames_eq (c : Class) : c.propertyNames = c.properties.map (·.name) :=
  List.map_flatMap.symm

/-- What is listed is what can be looked up. -/
theorem mem_propertyNames_iff : name ∈ c.propertyNames ↔ (c.property? name).isSome = true := by
  simp [propertyNames_eq, property?_eq_find?]

/-- A name is listed once for each declaration. -/
theorem count_propertyNames (c : Class) (name : String) :
    c.propertyNames.count name = c.propertyDeclarations name := by
  simp only [propertyNames_eq, List.count_eq_countP, List.countP_map, properties, List.countP_flatMap,
    propertyDeclarations, Function.comp_def]

end ScriptBridge.Class
