import ScriptBridge.Text.Utf8
import ScriptBridge.Value

/-!
The values of the script engine. Strings are bytes; tables, functions, coroutines and userdata are
references into the heap of one engine.
-/

namespace ScriptBridge.Script

/-- The bytes of a script string. -/
abbrev Bytes := List UInt8

def Bytes.ofString (s : String) : Bytes := s.toUTF8.toList

/-- The text of a string; bytes that are not UTF-8 are replaced. -/
def Bytes.toText (b : Bytes) : String := Text.decodeLossy b

@[simp] theorem Bytes.toText_ofString (s : String) : (Bytes.ofString s).toText = s :=
  Text.decodeLossy_toUTF8 s

inductive Datum where
  | nil
  | bool (b : Bool)
  | int (i : Int64)
  | float (d : Double)
  | text (s : Bytes)
  | table (r : Ref)
  | function (r : Ref)
  | thread (r : Ref)
  | userdata (r : Ref)
  /-- A failure that script code has caught. -/
  | failure (e : EngineError)
deriving DecidableEq, Inhabited

namespace Datum

def str (s : String) : Datum := .text (Bytes.ofString s)

/-- The name that `type` gives. -/
def typeName : Datum → String
  | .nil => "nil"
  | .bool _ => "boolean"
  | .int _ | .float _ => "number"
  | .text _ => "string"
  | .table _ => "table"
  | .function _ => "function"
  | .thread _ => "thread"
  | .userdata _ | .failure _ => "userdata"

def isTrue : Datum → Bool
  | .nil | .bool false => false
  | _ => true

def isNil : Datum → Bool
  | .nil => true
  | _ => false

/-- The heap place a datum refers to. -/
def ref? : Datum → Option Ref
  | .table r | .function r | .thread r | .userdata r => some r
  | _ => none

/-- Equality without metamethods: integers and floats compare by value. -/
def rawEq : Datum → Datum → Bool
  | .float a, .float b => a.numEq b
  | .int a, .float b | .float b, .int a => b.toInt64? == some a
  | a, b => a == b

/-- The form in which a datum is a table key: an integral float is the integer. -/
def toKey : Datum → Datum
  | .float d => match d.toInt64? with
    | some i => .int i
    | none => .float d
  | d => d

end Datum

namespace Table

/-- The value under a key that is in its form as a key. -/
def find (key : Datum) : List (Datum × Datum) → Datum
  | [] => .nil
  | (k, v) :: rest => if k = key then v else find key rest

def position : Datum → Option Int
  | .int i => if 0 < i.toInt then some i.toInt else none
  | _ => none

/-- Whether a new key goes before one that is there. -/
def precedes (new old : Datum) : Bool :=
  match position new, position old with
  | some i, some j => i < j
  | some _, none => true
  | none, _ => false

def place (key value : Datum) : List (Datum × Datum) → List (Datum × Datum)
  | [] => [(key, value)]
  | (k, v) :: rest =>
    if precedes key k then (key, value) :: (k, v) :: rest else (k, v) :: place key value rest

def replace (key value : Datum) : List (Datum × Datum) → List (Datum × Datum)
  | [] => []
  | (k, v) :: rest => if k = key then (k, value) :: rest else (k, v) :: replace key value rest

/-- Whether entries have different keys, none of them after one that it goes before. -/
def Sorted (entries : List (Datum × Datum)) : Prop :=
  entries.Pairwise fun a b => a.1 ≠ b.1 ∧ precedes b.1 a.1 = false

theorem sorted_nil : Sorted [] := List.Pairwise.nil

/-- What a key goes before, it goes before when others follow that. -/
theorem precedes_of_follows {key k k' : Datum} (first : precedes key k)
    (follows : precedes k' k = false) : precedes k' key = false := by
  unfold precedes at *
  grind

theorem mem_place {key value : Datum} {entries : List (Datum × Datum)} {entry : Datum × Datum}
    (member : entry ∈ place key value entries) : entry = (key, value) ∨ entry ∈ entries := by
  induction entries with
  | nil => simpa [place] using member
  | cons first rest ih =>
    simp only [place] at member
    split at member
    · simpa using member
    · rcases List.mem_cons.mp member with same | later
      · exact .inr (by simp [same])
      · exact (ih later).imp_right (List.mem_cons_of_mem _)

theorem Sorted.place {key value : Datum} {entries : List (Datum × Datum)}
    (sorted : Sorted entries) (fresh : ∀ entry ∈ entries, entry.1 ≠ key) :
    Sorted (place key value entries) := by
  induction entries with
  | nil => exact List.pairwise_singleton _ _
  | cons first rest ih =>
    obtain ⟨k, v⟩ := first
    obtain ⟨after, sortedRest⟩ := List.pairwise_cons.mp sorted
    have other : k ≠ key := fresh (k, v) List.mem_cons_self
    unfold Table.place
    split
    · rename_i goes
      refine List.pairwise_cons.mpr ⟨fun entry member => ⟨(fresh entry member).symm, ?_⟩, sorted⟩
      rcases List.mem_cons.mp member with rfl | later
      · refine precedes_of_follows goes ?_
        unfold precedes
        grind
      · exact precedes_of_follows goes (after entry later).2
    · rename_i stays
      refine List.pairwise_cons.mpr ⟨fun entry member => ?_,
        ih sortedRest fun entry later => fresh entry (List.mem_cons_of_mem _ later)⟩
      rcases mem_place member with rfl | later
      · exact ⟨other, by simpa using stays⟩
      · exact after entry later

theorem keys_replace (key value : Datum) (entries : List (Datum × Datum)) :
    (replace key value entries).map (·.1) = entries.map (·.1) := by
  induction entries with
  | nil => rfl
  | cons first rest ih =>
    unfold replace
    split
    · rfl
    · exact congrArg (first.1 :: ·) ih

theorem Sorted.replace {entries : List (Datum × Datum)} (sorted : Sorted entries)
    (key value : Datum) : Sorted (replace key value entries) := by
  have onKeys {entries : List (Datum × Datum)} : Sorted entries ↔
      (entries.map (·.1)).Pairwise fun a b => a ≠ b ∧ precedes b a = false := by
    rw [Sorted, List.pairwise_map]
  rw [onKeys, keys_replace]
  exact onKeys.mp sorted

end Table

/-- A table: its entries with integers above zero first, ascending, and then all other keys in the
order in which they came. A key whose value went keeps its place with the value nil. -/
structure Table where
  entries : List (Datum × Datum) := []
  sorted : Table.Sorted entries := by exact ScriptBridge.Script.Table.sorted_nil

namespace Table

instance : Inhabited Table := ⟨{}⟩

/-- The value under a key, without metamethods. -/
def get (t : Table) (key : Datum) : Datum := find key.toKey t.entries

/-- The table with a value under a key, without metamethods. -/
def set (t : Table) (key value : Datum) : Table :=
  if present : t.entries.any (·.1 == key.toKey) then
    ⟨replace key.toKey value t.entries, t.sorted.replace key.toKey value⟩
  else if value.isNil then t
  else
    ⟨place key.toKey value t.entries, t.sorted.place fun entry member same =>
      present (List.any_eq_true.mpr ⟨entry, member, by simp [same]⟩)⟩

/-- The entries that hold a value. -/
def live (t : Table) : List (Datum × Datum) := t.entries.filter (!·.2.isNil)

/-- The length of the sequence `1, 2, …` in the entries from `n + 1` on. -/
def count (n : Nat) : List (Datum × Datum) → Nat
  | [] => n
  | (k, v) :: rest =>
    if k = .int (Int64.ofNat (n + 1)) && !v.isNil then count (n + 1) rest else n

/-- How far the keys `1, 2, …` go without a gap. -/
def length (t : Table) : Nat := count 0 t.entries

/-- The entry after a key, or the first one after nil; `none` when the key has no place. -/
def next (t : Table) (key : Datum) : Option (Option (Datum × Datum)) :=
  let after (rest : List (Datum × Datum)) := rest.find? (!·.2.isNil)
  if key.isNil then some (after t.entries)
  else
    match t.entries.dropWhile (·.1 != key.toKey) with
    | [] => none
    | _ :: rest => some (after rest)

end Table

end ScriptBridge.Script
