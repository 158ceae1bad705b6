/-!
Stores: items by number. Numbers count up and are never given twice.
-/

namespace ScriptBridge

/-- Items by number; `none` is left where an item has been taken out. -/
structure Store (α : Type) where
  slots : Array (Option α) := #[]

namespace Store

variable {α : Type}

/-- The number that the next item gets. -/
def next (s : Store α) : Nat := s.slots.size

def get? (s : Store α) (id : Nat) : Option α := (s.slots[id]?).join

def add (s : Store α) (a : α) : Store α := ⟨s.slots.push (some a)⟩

/-- Changes an item that is there. -/
def modify (s : Store α) (id : Nat) (f : α → α) : Store α := ⟨s.slots.modify id (Option.map f)⟩

def erase (s : Store α) (id : Nat) : Store α := ⟨s.slots.modify id fun _ => none⟩

/-- The numbers of all items, ascending. -/
def ids (s : Store α) : List Nat :=
  (s.slots.toList.zipIdx).filterMap fun (item, id) => item.map fun _ => id

def items (s : Store α) : List α := s.slots.toList.filterMap id

theorem get?_of_next_le (s : Store α) {id : Nat} (large : s.next ≤ id) : s.get? id = none := by
  unfold next at large
  simp [get?, large]

theorem lt_next_of_get? {s : Store α} {id : Nat} {a : α} (found : s.get? id = some a) :
    id < s.next := by
  by_cases small : id < s.next
  · exact small
  · simp [s.get?_of_next_le (Nat.le_of_not_lt small)] at found

@[simp] theorem get?_empty (id : Nat) : ({} : Store α).get? id = none := by
  simp [get?]

@[simp] theorem next_add (s : Store α) (a : α) : (s.add a).next = s.next + 1 := by
  simp [next, add]

@[simp] theorem next_modify (s : Store α) (id : Nat) (f : α → α) :
    (s.modify id f).next = s.next := by
  simp [next, modify]

@[simp] theorem next_erase (s : Store α) (id : Nat) : (s.erase id).next = s.next := by
  simp [next, erase]

theorem get?_add (s : Store α) (a : α) (id : Nat) :
    (s.add a).get? id = if id = s.next then some a else s.get? id := by
  unfold get? add next
  rw [Array.getElem?_push]
  by_cases last : id = s.slots.size <;> simp [last]

theorem get?_modify (s : Store α) (i id : Nat) (f : α → α) :
    (s.modify i f).get? id = if i = id then (s.get? id).map f else s.get? id := by
  simp only [get?, modify, Array.getElem?_modify]
  split
  · cases s.slots[id]? with
    | none => rfl
    | some item => cases item <;> rfl
  · rfl

theorem get?_erase (s : Store α) (i id : Nat) :
    (s.erase i).get? id = if i = id then none else s.get? id := by
  simp only [get?, erase, Array.getElem?_modify]
  split
  · cases s.slots[id]? <;> rfl
  · rfl

/-- What is left after items have been taken out one after another. -/
theorem get?_eraseAll (s : Store α) (ids : List Nat) (id : Nat) :
    (ids.foldl (fun s i => s.erase i) s).get? id = if id ∈ ids then none else s.get? id := by
  induction ids generalizing s with
  | nil => simp
  | cons i rest ih =>
    rw [List.foldl_cons, ih, get?_erase]
    by_cases same : i = id
    · simp [same]
    · have other : id ≠ i := fun h => same h.symm
      simp [same, other]

theorem mem_ids {s : Store α} {id : Nat} : id ∈ s.ids ↔ ∃ a, s.get? id = some a := by
  simp only [ids, get?, List.mem_filterMap, Option.map_eq_some_iff, Option.join_eq_some_iff]
  constructor
  · rintro ⟨⟨item, i⟩, member, a, found, rfl⟩
    have place := List.mem_zipIdx_iff_getElem?.mp member
    obtain rfl : item = some a := found
    exact ⟨a, by simpa using place⟩
  · rintro ⟨a, found⟩
    exact ⟨(some a, id), List.mem_zipIdx_iff_getElem?.mpr (by simpa using found), a, rfl, rfl⟩

theorem mem_items {s : Store α} {a : α} : a ∈ s.items ↔ ∃ id, s.get? id = some a := by
  simp [items, get?, Array.mem_iff_getElem?, Option.join_eq_some_iff]

end Store

end ScriptBridge
