import ScriptBridge.Text.Blank

/-!
The types of host values and the signatures of host members, written `name(type,type)`.
-/

namespace ScriptBridge

/-- A type of parameters, results and properties of host objects. -/
inductive HostType where
  | void
  | bool
  | int
  | double
  | string
  /-- A reference to a host object, which may be null. -/
  | object
  /-- A reference to a native object, which may be null. -/
  | native
  | list
  /-- Any bridge value, passed as it is. -/
  | variant
deriving DecidableEq, Repr

namespace HostType

def all : List HostType :=
  [.void, .bool, .int, .double, .string, .object, .native, .list, .variant]

def name : HostType → String
  | .void => "void"
  | .bool => "bool"
  | .int => "int"
  | .double => "double"
  | .string => "string"
  | .object => "object"
  | .native => "native"
  | .list => "list"
  | .variant => "variant"

private def ofTrimmed? (s : List Char) : Option HostType := all.find? (·.name.toList == s)

/-- A type by its name; blanks around it do not count. -/
def ofName? (s : String) : Option HostType := ofTrimmed? (Text.trim s.toList)

def ofChars? (s : List Char) : Option HostType := ofTrimmed? (Text.trim s)

theorem ofChars?_eq_some_iff {s : List Char} {t : HostType} :
    ofChars? s = some t ↔ Text.trim s = t.name.toList := by
  unfold ofChars? ofTrimmed?
  constructor
  · intro found
    have holds := List.find?_some found
    exact (eq_of_beq holds).symm
  · intro same
    rw [same]
    cases t <;> rfl

theorem mem_name {t : HostType} {c : Char} (member : c ∈ t.name.toList) : 'a' ≤ c ∧ c ≤ 'z' := by
  have letters : (t.name.toList.all fun c => 'a' ≤ c ∧ c ≤ 'z') = true := by cases t <;> decide
  simpa using List.all_eq_true.mp letters c member

theorem name_ne_nil (t : HostType) : t.name.toList ≠ [] := by cases t <;> decide

end HostType

/-- The name of a member and the types of its parameters. -/
structure Signature where
  name : String
  params : List HostType
deriving DecidableEq, Repr

namespace Signature

def text (s : Signature) : String :=
  s.name ++ "(" ++ ",".intercalate (s.params.map (·.name)) ++ ")"

/-- A signature without blanks. -/
def normalize (s : String) : String := String.ofList (s.toList.filter (!Text.isBlank ·))

/-- What stands before a closing bracket at the very end. -/
def dropClose (s : List Char) : Option (List Char) :=
  match s.reverse with
  | ')' :: rest => some rest.reverse
  | _ => none

theorem dropClose_eq_some_iff {s before : List Char} :
    dropClose s = some before ↔ s = before ++ [')'] := by
  unfold dropClose
  constructor
  · intro found
    split at found
    · rename_i rest same
      cases found
      simpa using congrArg List.reverse same
    · cases found
  · rintro rfl
    simp

/-- The types between the brackets; there may be none. -/
def types? (params : List Char) : Option (List HostType) :=
  if params.isEmpty then some [] else (Text.splitOn ',' params).mapM HostType.ofChars?

def parse? (s : String) : Option Signature := do
  let (name, rest) ← Text.splitOnce '(' (normalize s).toList
  let params ← dropClose rest
  let types ← types? params
  pure ⟨String.ofList name, types⟩

/-- Whether a slot with parameters `slot` can receive a signal with parameters `signal`: they are
a start of the signal's, where `variant` fits any type. -/
def compatible (signal slot : List HostType) : Bool :=
  slot.length ≤ signal.length && (slot.zip signal).all fun (s, g) => s == g || s == .variant

end Signature

end ScriptBridge
