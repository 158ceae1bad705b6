import ScriptBridge.World.Collection

/-!
References that stay within one state: what of script data, tables, environments and frames belongs
to a state, and how taking them apart and putting them together keeps that.
-/

namespace ScriptBridge

/-- All of some references lead into the heap of one state. -/
def Owned (s : StateId) (refs : List Ref) : Prop := ∀ r ∈ refs, r.owner = s

namespace Owned

variable {s : StateId}

@[simp] theorem nil : Owned s [] := by
  intro r member
  simp at member

@[simp] theorem cons_iff {r : Ref} {refs : List Ref} :
    Owned s (r :: refs) ↔ r.owner = s ∧ Owned s refs := by
  simp [Owned]

@[simp] theorem append_iff {refs others : List Ref} :
    Owned s (refs ++ others) ↔ Owned s refs ∧ Owned s others := by
  constructor
  · intro owned
    exact ⟨fun r member => owned r (List.mem_append_left _ member),
      fun r member => owned r (List.mem_append_right _ member)⟩
  · rintro ⟨left, right⟩ r member
    rcases List.mem_append.mp member with inLeft | inRight
    · exact left r inLeft
    · exact right r inRight

theorem flatMap_iff {items : List α} {f : α → List Ref} :
    Owned s (items.flatMap f) ↔ ∀ item ∈ items, Owned s (f item) := by
  constructor
  · intro owned item member r inItem
    exact owned r (List.mem_flatMap.mpr ⟨item, member, inItem⟩)
  · intro each r member
    obtain ⟨item, present, inItem⟩ := List.mem_flatMap.mp member
    exact each item present r inItem

theorem of_subset {refs others : List Ref} (owned : Owned s others) (subset : refs ⊆ others) :
    Owned s refs := fun r member => owned r (subset member)

end Owned

namespace Script

open ScriptBridge (Owned)

variable {s : StateId}

/-- All of some script data belongs to a state. -/
def OwnedData (s : StateId) (data : List Datum) : Prop := ∀ d ∈ data, Owned s d.refs

theorem owned_refsOf {data : List Datum} : Owned s (refsOf data) ↔ OwnedData s data :=
  Owned.flatMap_iff

namespace OwnedData

@[simp] theorem nil : OwnedData s [] := by
  intro d member
  simp at member

@[simp] theorem cons_iff {d : Datum} {data : List Datum} :
    OwnedData s (d :: data) ↔ Owned s d.refs ∧ OwnedData s data := by
  simp [OwnedData]

@[simp] theorem append_iff {data others : List Datum} :
    OwnedData s (data ++ others) ↔ OwnedData s data ∧ OwnedData s others := by
  simp only [OwnedData, List.mem_append]
  constructor
  · intro owned
    exact ⟨fun d member => owned d (.inl member), fun d member => owned d (.inr member)⟩
  · rintro ⟨left, right⟩ d (inLeft | inRight)
    · exact left d inLeft
    · exact right d inRight

theorem of_subset {data others : List Datum} (owned : OwnedData s others)
    (subset : data ⊆ others) : OwnedData s data := fun d member => owned d (subset member)

variable {data : List Datum} (owned : OwnedData s data)
include owned

@[simp] theorem drop (n : Nat) : OwnedData s (data.drop n) :=
  owned.of_subset (List.drop_subset n data)

@[simp] theorem take (n : Nat) : OwnedData s (data.take n) :=
  owned.of_subset (List.take_subset n data)

@[simp] theorem reverse : OwnedData s data.reverse := by
  intro d member
  exact owned d (List.mem_reverse.mp member)

@[simp] theorem headD : Owned s (data.headD .nil).refs := by
  cases data with
  | nil => simp [Datum.refs, Datum.ref?]
  | cons d rest => exact owned d (by simp)

theorem getElem? {n : Nat} {d : Datum} (found : data[n]? = some d) : Owned s d.refs :=
  owned d (List.mem_of_getElem? found)

end OwnedData

@[simp] theorem refs_nil : Datum.nil.refs = [] := rfl
@[simp] theorem refs_bool (b : Bool) : (Datum.bool b).refs = [] := rfl
@[simp] theorem refs_int (i : Int64) : (Datum.int i).refs = [] := rfl
@[simp] theorem refs_float (d : Double) : (Datum.float d).refs = [] := rfl
@[simp] theorem refs_text (b : Bytes) : (Datum.text b).refs = [] := rfl
@[simp] theorem refs_str (t : String) : (Datum.str t).refs = [] := rfl
@[simp] theorem refs_failure (e : EngineError) : (Datum.failure e).refs = [] := rfl
@[simp] theorem refs_table (r : Ref) : (Datum.table r).refs = [r] := rfl
@[simp] theorem refs_function (r : Ref) : (Datum.function r).refs = [r] := rfl
@[simp] theorem refs_thread (r : Ref) : (Datum.thread r).refs = [r] := rfl
@[simp] theorem refs_userdata (r : Ref) : (Datum.userdata r).refs = [r] := rfl

@[simp] theorem refs_toKey (d : Datum) : d.toKey.refs = d.refs := by
  cases d with
  | float x =>
    simp only [Datum.toKey]
    split <;> rfl
  | _ => rfl

namespace Table

theorem owned_iff {t : Table} :
    Owned s t.refs ↔ ∀ k v, (k, v) ∈ t.entries → Owned s k.refs ∧ Owned s v.refs := by
  simp [Table.refs, Owned.flatMap_iff]

@[simp] theorem owned_empty : Owned s ({} : Table).refs := Owned.nil

private theorem find_mem {key v : Datum} {entries : List (Datum × Datum)}
    (found : find key entries = v) (present : v ≠ .nil) : ∃ k, (k, v) ∈ entries := by
  induction entries with
  | nil => exact absurd found.symm present
  | cons entry rest ih =>
    obtain ⟨k, value⟩ := entry
    by_cases same : k = key
    · simp only [find, same, if_true] at found
      exact ⟨k, by simp [found]⟩
    · simp only [find, same, if_false] at found
      obtain ⟨k', member⟩ := ih found
      exact ⟨k', by simp [member]⟩

theorem get_owned {t : Table} (owned : Owned s t.refs) (key : Datum) :
    Owned s (t.get key).refs := by
  by_cases empty : t.get key = .nil
  · simp [empty]
  · obtain ⟨k, member⟩ := find_mem rfl empty
    exact (owned_iff.mp owned k _ member).2

private theorem mem_replace {key value : Datum} {entries : List (Datum × Datum)} {k v : Datum}
    (member : (k, v) ∈ replace key value entries) :
    (k, v) ∈ entries ∨ v = value ∧ k = key := by
  induction entries with
  | nil => simp [replace] at member
  | cons first rest ih =>
    simp only [replace] at member
    split at member
    · rename_i same
      rcases List.mem_cons.mp member with new | later
      · obtain ⟨rfl, rfl⟩ := Prod.mk.inj new
        exact .inr ⟨rfl, same⟩
      · exact .inl (by simp [later])
    · rcases List.mem_cons.mp member with old | later
      · exact .inl (by simp [old])
      · rcases ih later with old | new
        · exact .inl (by simp [old])
        · exact .inr new

theorem set_owned {t : Table} (owned : Owned s t.refs) {key value : Datum}
    (ownKey : Owned s key.refs) (ownValue : Owned s value.refs) :
    Owned s (t.set key value).refs := by
  rw [owned_iff] at *
  intro k v member
  simp only [Table.set] at member
  split at member
  · rcases mem_replace member with old | ⟨rfl, rfl⟩
    · exact owned k v old
    · exact ⟨by simpa using ownKey, ownValue⟩
  · split at member
    · exact owned k v member
    · rcases mem_place member with new | old
      · obtain ⟨rfl, rfl⟩ := Prod.mk.inj new
        exact ⟨by simpa using ownKey, ownValue⟩
      · exact owned k v old

/-- A table that is filled with own data is a state's own. -/
theorem foldl_set_owned {entries : List (Datum × Datum)} {t : Table} (owned : Owned s t.refs)
    (each : ∀ k v, (k, v) ∈ entries → Owned s k.refs ∧ Owned s v.refs) :
    Owned s (entries.foldl (fun t (k, v) => t.set k v) t).refs := by
  induction entries generalizing t with
  | nil => exact owned
  | cons entry rest ih =>
    obtain ⟨k, v⟩ := entry
    have ⟨ownKey, ownValue⟩ := each k v (by simp)
    exact ih (set_owned owned ownKey ownValue) fun k v member => each k v (by simp [member])

theorem next_owned {t : Table} (owned : Owned s t.refs) {key k v : Datum}
    (found : t.next key = some (some (k, v))) : Owned s k.refs ∧ Owned s v.refs := by
  apply owned_iff.mp owned
  simp only [Table.next] at found
  split at found
  · exact List.mem_of_find?_eq_some (Option.some.inj found)
  · split at found
    · simp at found
    · rename_i first rest kept
      have later := List.mem_of_find?_eq_some (Option.some.inj found)
      exact (List.dropWhile_sublist _).subset (by rw [kept]; simp [later])

end Table

end Script

end ScriptBridge
