import ScriptBridge.Proofs.Marshal

/-!
Tables as functions of their keys, and tables as sequences: what is read after a write, and how long
a table is whose integer keys go from one to a number without a gap.
-/

namespace ScriptBridge.Script.Table

variable {t : Table} {key value : Datum}

theorem find_replace {key' : Datum} {entries : List (Datum × Datum)}
    (present : ∃ entry ∈ entries, entry.1 = key) :
    find key' (replace key value entries) = if key' = key then value else find key' entries := by
  induction entries with
  | nil => simp at present
  | cons entry rest ih =>
    obtain ⟨k, v⟩ := entry
    unfold replace
    by_cases here : k = key
    · rw [if_pos here, here]
      simp only [find, eq_comm (a := key)]
      split <;> rfl
    · rw [if_neg here]
      simp only [find]
      rw [ih (by simpa [here] using present)]
      grind

theorem find_place {key' : Datum} {entries : List (Datum × Datum)}
    (fresh : ∀ entry ∈ entries, entry.1 ≠ key) :
    find key' (place key value entries) = if key' = key then value else find key' entries := by
  induction entries with
  | nil =>
    simp only [place, find, eq_comm (a := key)]
  | cons entry rest ih =>
    obtain ⟨k, v⟩ := entry
    have other : k ≠ key := fresh _ List.mem_cons_self
    have later := ih fun entry member => fresh entry (List.mem_cons_of_mem _ member)
    unfold place
    split
    · simp only [find]
      grind
    · simp only [find, later]
      grind

theorem find_absent {entries : List (Datum × Datum)} (absent : ∀ entry ∈ entries, entry.1 ≠ key) :
    find key entries = .nil := by
  induction entries with
  | nil => rfl
  | cons entry rest ih =>
    simp only [find, if_neg (absent entry List.mem_cons_self)]
    exact ih fun entry member => absent entry (List.mem_cons_of_mem _ member)

/-- What is read from a table after a write. -/
theorem get_set (t : Table) (key value key' : Datum) :
    (t.set key value).get key' = if key'.toKey = key.toKey then value else t.get key' := by
  unfold set
  split
  · rename_i present
    refine find_replace ?_
    simpa using present
  · rename_i absent
    have fresh : ∀ entry ∈ t.entries, entry.1 ≠ key.toKey := fun entry member same =>
      absent (List.any_eq_true.mpr ⟨entry, member, by simp [same]⟩)
    split
    · rename_i none
      have nothing : value = .nil := by cases value <;> simp_all [Datum.isNil]
      split
      · rename_i same
        rw [get, same, find_absent fresh, nothing]
      · rfl
    · exact find_place fresh

@[simp] theorem get_set_same (t : Table) (key value : Datum) : (t.set key value).get key = value := by
  rw [get_set, if_pos rfl]

/-- What a table has under a name after a write under a name. -/
theorem get_set_str (t : Table) (name : String) (value : Datum) (name' : String) :
    (t.set (.str name) value).get (.str name') = if name' = name then value else t.get (.str name') := by
  have same : (Datum.str name').toKey = (Datum.str name).toKey ↔ name' = name := by
    refine ⟨fun keys => ?_, fun same => by rw [same]⟩
    have bytes : Bytes.ofString name' = Bytes.ofString name := by
      simpa [Datum.str, Datum.toKey] using keys
    simpa using congrArg Bytes.toText bytes
  rw [get_set]
  simp only [same]

theorem le_count (n : Nat) (entries : List (Datum × Datum)) : n ≤ count n entries := by
  induction entries generalizing n with
  | nil => exact Nat.le_refl n
  | cons entry rest ih =>
    simp only [count]
    split
    · exact Nat.le_of_succ_le (ih (n + 1))
    · exact Nat.le_refl n

theorem position_ofNat {n : Nat} (positive : 0 < n) (small : (n : Int) ≤ Int64.maxValue.toInt) :
    position (.int (Int64.ofNat n)) = some (n : Int) := by
  rw [Int64.toInt_maxValue] at small
  have number : (Int64.ofNat n).toInt = n := Int64.toInt_ofNat_of_lt (by omega)
  rw [position, number, if_pos (by omega)]

theorem eq_of_position {key : Datum} {n : Nat} (placed : position key = some (n : Int)) :
    key = .int (Int64.ofNat n) := by
  cases key with
  | int i =>
    simp only [position, Option.ite_none_right_eq_some, Option.some.injEq] at placed
    rw [← Int64.ofInt_eq_ofNat, ← placed.2, Int64.ofInt_toInt]
  | _ => cases placed

/-- After the sequence in a table ends, there is nothing at the next position. -/
theorem find_count {n : Nat} {entries : List (Datum × Datum)} (sorted : Sorted entries)
    (onward : ∀ entry ∈ entries, ∀ i, position entry.1 = some i → n < i)
    (short : (count n entries : Int) < Int64.maxValue.toInt) :
    find (.int (Int64.ofNat (count n entries + 1))) entries = .nil := by
  induction entries generalizing n with
  | nil => rfl
  | cons entry rest ih =>
    obtain ⟨k, v⟩ := entry
    obtain ⟨after, sortedRest⟩ := List.pairwise_cons.mp sorted
    have onwardRest entry (member : entry ∈ rest) := onward entry (List.mem_cons_of_mem _ member)
    have reached := le_count (n + 1) rest
    simp only [count] at short ⊢
    split at short
    · -- The key is the next position: what ends the sequence comes later.
      rename_i next
      rw [if_pos next]
      obtain ⟨rfl, -⟩ : k = .int (Int64.ofNat (n + 1)) ∧ v.isNil = false := by simpa using next
      have here := position_ofNat (n := n + 1) (Nat.succ_pos n) (by omega)
      have there := position_ofNat (Nat.succ_pos (count (n + 1) rest)) (by omega)
      have beyond : Datum.int (Int64.ofNat (n + 1)) ≠ .int (Int64.ofNat (count (n + 1) rest + 1)) := by
        intro same
        rw [same, there] at here
        have := Option.some.inj here
        omega
      simp only [find, if_neg beyond]
      refine ih sortedRest (fun entry member i placed => ?_) short
      have above := onwardRest entry member i placed
      refine Int.not_le.mp fun near => ?_
      obtain rfl : i = (n + 1 : Nat) := by omega
      exact (after entry member).1 (eq_of_position placed).symm
    · -- The key is another one, and the next position does not come after it.
      rename_i stop
      rw [if_neg stop]
      have here := position_ofNat (n := n + 1) (Nat.succ_pos n) (by omega)
      simp only [find]
      split
      · rename_i same
        cases v with
        | nil => rfl
        | _ => simp [same, Datum.isNil] at stop
      · rename_i other
        refine find_absent fun entry member same => ?_
        have unordered := (after entry member).2
        rw [precedes, same, here] at unordered
        cases placed : position k with
        | none => simp [placed] at unordered
        | some i =>
          have above := onward (k, v) List.mem_cons_self i placed
          simp only [placed, decide_eq_false_iff_not] at unordered
          obtain rfl : i = (n + 1 : Nat) := by omega
          exact other (eq_of_position placed)

theorem get_length {t : Table} (short : (t.length : Int) < Int64.maxValue.toInt) :
    t.get (.int (Int64.ofNat (t.length + 1))) = .nil := by
  refine find_count t.sorted (fun entry _ i placed => ?_) short
  cases shape : entry.1 with
  | int j =>
    simp only [position, shape, Option.ite_none_right_eq_some, Option.some.injEq] at placed
    omega
  | _ => simp [position, shape] at placed

/-- The item of a list at a position, counted from one; nil where there is none. -/
def itemAt (items : List Datum) (position : Int) : Datum :=
  if 1 ≤ position then (items[(position - 1).toNat]?).getD .nil else .nil

theorem itemAt_succ (items : List Datum) (k : Nat) : itemAt items (k + 1) = (items[k]?).getD .nil := by
  have place : ((k + 1 : Int) - 1).toNat = k := by omega
  rw [itemAt, if_pos (by omega), place]

theorem itemAt_beyond {items : List Datum} {position : Int} (beyond : items.length < position) :
    itemAt items position = .nil := by
  rw [itemAt, if_pos (by omega), List.getElem?_eq_none (by omega), Option.getD_none]

/-- A table that has the items of a list at the positions from one on, and under its integer keys
nothing else. -/
structure Lists (t : Table) (items : List Datum) : Prop where
  short : (items.length : Int) ≤ Int64.maxValue.toInt
  get : ∀ i : Int64, t.get (.int i) = itemAt items i.toInt

theorem lists_empty : ({} : Table).Lists [] where
  short := by decide
  get i := by
    unfold itemAt
    split <;> rfl

/-- An item that is put after the last one. -/
theorem Lists.push {t : Table} {items : List Datum} (lists : t.Lists items) (item : Datum)
    (room : (items.length : Int) < Int64.maxValue.toInt) :
    (t.set (.int (.ofNat (items.length + 1))) item).Lists (items ++ [item]) where
  short := by
    rw [List.length_append, List.length_singleton]
    omega
  get i := by
    rw [Int64.toInt_maxValue] at room
    have number : (Int64.ofNat (items.length + 1)).toInt = items.length + 1 :=
      Int64.toInt_ofNat_of_lt (by omega)
    rw [get_set, lists.get]
    change (if Datum.int i = .int (.ofNat (items.length + 1)) then item else _) = _
    by_cases last : i = .ofNat (items.length + 1)
    · rw [if_pos (by rw [last]), last, number, itemAt, if_pos (by omega),
        List.getElem?_append_right (by omega)]
      simp
    · have other : i.toInt ≠ items.length + 1 := fun same =>
        last (Int64.toInt_inj.mp (same.trans number.symm))
      rw [if_neg fun same => last (Datum.int.inj same)]
      by_cases positive : 1 ≤ i.toInt
      · obtain ⟨k, place⟩ : ∃ k : Nat, i.toInt = k + 1 := ⟨(i.toInt - 1).toNat, by omega⟩
        rw [place, itemAt_succ, itemAt_succ, List.getElem?_append]
        split
        · rfl
        · rw [List.getElem?_eq_none (by omega), List.getElem?_eq_none (by simp; omega)]
      · rw [itemAt, itemAt, if_neg positive, if_neg positive]

/-- A table that lists items, none of them nil, has their number as its length. -/
theorem Lists.length {t : Table} {items : List Datum} (lists : t.Lists items)
    (full : ∀ item ∈ items, item ≠ .nil) : t.length = items.length := by
  have short := lists.short
  rw [Int64.toInt_maxValue] at short
  rcases Nat.lt_trichotomy t.length items.length with less | same | more
  · have ends := get_length (t := t) (by rw [Int64.toInt_maxValue]; omega)
    have number : (Int64.ofNat (t.length + 1)).toInt = t.length + 1 :=
      Int64.toInt_ofNat_of_lt (by omega)
    have place : ((t.length + 1 : Int) - 1).toNat = t.length := by omega
    rw [lists.get, number, itemAt, if_pos (by omega), place, List.getElem?_eq_getElem less,
      Option.getD_some] at ends
    exact absurd ends (full _ (List.getElem_mem less))
  · exact same
  · refine absurd ?_ (get_of_lt_length more)
    rw [lists.get]
    by_cases last : (items.length : Int) = 2 ^ 63 - 1
    · have number : Int64.ofNat (items.length + 1) = Int64.minValue := by
        rw [show items.length + 1 = 2 ^ 63 by omega]
        rfl
      rw [number]
      rfl
    · have number : (Int64.ofNat (items.length + 1)).toInt = items.length + 1 :=
        Int64.toInt_ofNat_of_lt (by omega)
      exact itemAt_beyond (by omega)

end ScriptBridge.Script.Table
