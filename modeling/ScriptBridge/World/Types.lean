import ScriptBridge.Host.Class

/-!
The table of registered classes: entries in the order in which they came, and their numbers by the
name without colons. Nothing is ever taken out.
-/

namespace ScriptBridge

/-- A registered class. -/
structure TypeEntry where
  id : Nat
  cls : Class
  creator : Bool

structure TypeTable where
  entries : List TypeEntry := []
  /-- The numbers of the entries by normal name. -/
  byName : List (String × Nat) := []

namespace World

/-- The name of a class without colons. -/
def normalName (name : String) : String :=
  String.ofList (name.toList.map fun c => if c = ':' then '_' else c)

end World

namespace TypeTable

open World (normalName)

def lookupId (t : TypeTable) (id : Nat) : Option TypeEntry := t.entries[id]?

def lookup (t : TypeTable) (name : String) : Option TypeEntry :=
  (t.byName.lookup (normalName name)).bind t.lookupId

/-- Registers a class and gives its number; one of the same name that is there already stays. -/
def register (t : TypeTable) (cls : Class) (creator : Bool) : Nat × TypeTable :=
  match t.byName.lookup (normalName cls.name) with
  | some id => (id, t)
  | none =>
    let id := t.entries.length
    (id, { entries := t.entries ++ [⟨id, cls, creator⟩]
           byName := (normalName cls.name, id) :: t.byName })

end TypeTable

end ScriptBridge
