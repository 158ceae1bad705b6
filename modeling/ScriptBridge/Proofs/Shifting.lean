import Mathlib.Logic.Basic
import ScriptBridge.Proofs.Tables

/-!
Moving the items of a sequence in place: what the loops that move items down and up make of a table
as a function of its keys, and of the list of its items.
-/

namespace ScriptBridge

open Script (Datum Table)

namespace TableOps

/-- A list without `n` items from a place on. -/
def removed (items : List Datum) (place n : Nat) : List Datum :=
  items.take place ++ items.drop (place + n)

/-- A list with `n` copies of an item put in at a place. -/
def inserted (items : List Datum) (place n : Nat) (fill : Datum) : List Datum :=
  items.take place ++ List.replicate n fill ++ items.drop place

/-- Whether a position is a 64-bit integer. -/
def Fits (j : Int) : Prop := Int64.minValue.toInt ≤ j ∧ j ≤ maxInteger

theorem maxInteger_eq : maxInteger = 9223372036854775807 := rfl

theorem fits_iff {j : Int} :
    Fits j ↔ -9223372036854775808 ≤ j ∧ j < 9223372036854775808 := by
  rw [Fits, Int64.toInt_minValue, maxInteger_eq]
  omega

instance (j : Int) : Decidable (Fits j) := inferInstanceAs (Decidable (_ ∧ _))

theorem fits_toInt (i : Int64) : Fits i.toInt := ⟨i.minValue_le_toInt, i.toInt_le⟩

theorem toInt_ofInt {j : Int} (fits : Fits j) : (Int64.ofInt j).toInt = j :=
  Int64.toInt_ofInt_of_le (fits_iff.mp fits).1 (fits_iff.mp fits).2

theorem at_toInt (i : Int64) : at_ i.toInt = .int i := by
  rw [at_, Int64.ofInt_toInt]

theorem at_inj {i j : Int} (left : Fits i) (right : Fits j) : at_ i = at_ j ↔ i = j := by
  constructor
  · intro same
    rw [← toInt_ofInt left, ← toInt_ofInt right, Datum.int.inj same]
  · exact congrArg at_

/-- What is read at a position after a write at a position. -/
theorem get_set_at {i j : Int} (left : Fits i) (right : Fits j) (t : Table) (value : Datum) :
    (t.set (at_ i) value).get (at_ j) = if j = i then value else t.get (at_ j) := by
  rw [Table.get_set]
  exact if_congr (at_inj right left) rfl rfl

/-- Two tables have the same under all keys that are not integers. -/
def SameBesides (t t' : Table) : Prop := ∀ key, (∀ i, key.toKey ≠ .int i) → t'.get key = t.get key

theorem SameBesides.refl (t : Table) : SameBesides t t := fun _ _ => rfl

theorem SameBesides.trans {t t₁ t' : Table} (first : SameBesides t t₁) (second : SameBesides t₁ t') :
    SameBesides t t' :=
  fun key other => (second key other).trans (first key other)

theorem SameBesides.set {t t' : Table} (same : SameBesides t t') (i : Int) (value : Datum) :
    SameBesides t (t'.set (at_ i) value) := fun key other => by
  have apart : key.toKey ≠ (at_ i).toKey := other (Int64.ofInt i)
  rw [Table.get_set, if_neg apart, same key other]

section Loops

/-- What every turn of a loop keeps holds after the loop. -/
theorem foldl_range (P : Nat → Table → Prop) (f : Table → Nat → Table) (t : Table) (turns : Nat)
    (before : P 0 t) (turn : ∀ k < turns, ∀ t, P k t → P (k + 1) (f t k)) :
    P turns ((List.range turns).foldl f t) := by
  induction turns with
  | zero => exact before
  | succ n ih =>
    rw [List.range_succ, List.foldl_append]
    exact turn n (Nat.lt_succ_self n) _ (ih fun k small => turn k (Nat.lt_succ_of_lt small))

variable (content : Table) {start length n : Int}

/-- Moving down: the positions below the one to write next have what was `n` further up, and what
is read next is as it was. -/
theorem get_shiftDown (first : 1 ≤ start) (down : 0 ≤ n) (short : length ≤ maxInteger) :
    (∀ j, Fits j → (shiftDown content start length n).get (at_ j) =
      if start ≤ j ∧ j ≤ length then
        if j + n ≤ length then content.get (at_ (j + n)) else .nil
      else content.get (at_ j)) ∧ SameBesides content (shiftDown content start length n) := by
  have low : Int64.minValue.toInt ≤ 0 := by decide
  unfold shiftDown
  have loop := foldl_range (fun k t => (∀ j, Fits j → t.get (at_ j) =
      if start ≤ j ∧ j < start + k then
        if j + n ≤ length then content.get (at_ (j + n)) else .nil
      else content.get (at_ j)) ∧ SameBesides content t)
    (fun t k => t.set (at_ (start + k))
      (if start + k + n ≤ length then t.get (at_ (start + k + n)) else .nil)) content
    (length - start + 1).toNat ?before ?turn
  · obtain ⟨at', besides⟩ := loop
    refine ⟨fun j fits => ?_, besides⟩
    rw [at' j fits]
    exact if_congr (by omega) rfl rfl
  case before =>
    exact ⟨fun j _ => (if_neg (by omega)).symm, .refl content⟩
  case turn =>
    rintro k small t ⟨at', besides⟩
    have here : Fits (start + k) := ⟨by omega, by omega⟩
    refine ⟨fun j fits => ?_, besides.set _ _⟩
    rw [get_set_at here fits]
    by_cases same : j = start + k
    · subst same
      have moved : start ≤ start + (k : Int) ∧ start + (k : Int) < start + (k + 1 : Nat) := by omega
      rw [if_pos rfl, if_pos moved]
      refine if_ctx_congr Iff.rfl (fun inside => ?_) fun _ => rfl
      rw [at' _ ⟨by omega, by omega⟩, if_neg (by omega)]
    · rw [if_neg same, at' j fits]
      exact if_congr (by omega) rfl rfl

/-- Moving up, from the end: the positions above the one to write next have what was `n` further
down, and what is read next is as it was. -/
theorem get_shiftUp (first : 1 ≤ start) (up : 0 < n) (short : length + n ≤ maxInteger) :
    (∀ j, Fits j → (shiftUp content start length n).get (at_ j) =
      if start + n ≤ j ∧ j ≤ length + n then content.get (at_ (j - n))
      else content.get (at_ j)) ∧ SameBesides content (shiftUp content start length n) := by
  have low : Int64.minValue.toInt ≤ 0 := by decide
  unfold shiftUp
  have loop := foldl_range (fun k t => (∀ j, Fits j → t.get (at_ j) =
      if length + n - k < j ∧ j ≤ length + n then content.get (at_ (j - n))
      else content.get (at_ j)) ∧ SameBesides content t)
    (fun t k => t.set (at_ (length - k + n)) (t.get (at_ (length - k)))) content
    (length - start + 1).toNat ?before ?turn
  · obtain ⟨at', besides⟩ := loop
    refine ⟨fun j fits => ?_, besides⟩
    rw [at' j fits]
    by_cases none : length < start
    · rw [if_neg (by omega), if_neg (by omega)]
    · exact if_congr (by omega) rfl rfl
  case before =>
    exact ⟨fun j _ => (if_neg (by omega)).symm, .refl content⟩
  case turn =>
    rintro k small t ⟨at', besides⟩
    have there : Fits (length - k + n) := ⟨by omega, by omega⟩
    refine ⟨fun j fits => ?_, besides.set _ _⟩
    rw [get_set_at there fits]
    by_cases same : j = length - k + n
    · subst same
      rw [if_pos rfl, if_pos ⟨by omega, by omega⟩, at' _ ⟨by omega, by omega⟩, if_neg (by omega)]
      congr 2
      omega
    · rw [if_neg same, at' j fits]
      exact if_congr (by omega) rfl rfl

theorem get_fillFrom (first : 1 ≤ start) (short : start + n - 1 ≤ maxInteger) (fill : Datum) :
    (∀ j, Fits j → (fillFrom content start n fill).get (at_ j) =
      if start ≤ j ∧ j < start + n then fill else content.get (at_ j)) ∧
      SameBesides content (fillFrom content start n fill) := by
  have low : Int64.minValue.toInt ≤ 0 := by decide
  unfold fillFrom
  have loop := foldl_range (fun k t => (∀ j, Fits j → t.get (at_ j) =
      if start ≤ j ∧ j < start + k then fill else content.get (at_ j)) ∧ SameBesides content t)
    (fun t k => t.set (at_ (start + k)) fill) content n.toNat ?before ?turn
  · obtain ⟨at', besides⟩ := loop
    refine ⟨fun j fits => ?_, besides⟩
    rw [at' j fits]
    exact if_congr (by omega) rfl rfl
  case before =>
    exact ⟨fun j _ => (if_neg (by omega)).symm, .refl content⟩
  case turn =>
    rintro k small t ⟨at', besides⟩
    have here : Fits (start + k) := ⟨by omega, by omega⟩
    refine ⟨fun j fits => ?_, besides.set _ _⟩
    rw [get_set_at here fits]
    by_cases same : j = start + k
    · subst same
      rw [if_pos rfl, if_pos ⟨by omega, by omega⟩]
    · rw [if_neg same, at' j fits]
      exact if_congr (by omega) rfl rfl

end Loops

section Items

open Script.Table (itemAt itemAt_beyond itemAt_succ)

variable {content : Table} {items : List Datum} {start n : Int}

theorem itemAt_removed (first : 1 ≤ start) (inside : start ≤ items.length + 1) (down : 0 ≤ n)
    (j : Int) : itemAt (removed items (start - 1).toNat n.toNat) j =
      if start ≤ j then itemAt items (j + n) else itemAt items j := by
  by_cases positive : 1 ≤ j
  · obtain ⟨k, rfl⟩ : ∃ k : Nat, j = k + 1 := ⟨(j - 1).toNat, by omega⟩
    have later : (k + 1 + n : Int) = (k + n.toNat : Nat) + 1 := by omega
    rw [later, itemAt_succ, itemAt_succ, itemAt_succ, removed]
    by_cases moved : start ≤ k + 1
    · rw [if_pos moved, List.getElem?_append_right (by simp; omega), List.length_take,
        List.getElem?_drop]
      congr 2
      omega
    · rw [if_neg moved, List.getElem?_append_left (by simp; omega), List.getElem?_take,
        if_pos (by omega)]
  · rw [if_neg (by omega), itemAt, itemAt, if_neg positive, if_neg positive]

theorem itemAt_inserted (first : 1 ≤ start) (inside : start ≤ items.length + 1) (up : 0 < n)
    (fill : Datum) (j : Int) : itemAt (inserted items (start - 1).toNat n.toNat fill) j =
      if start ≤ j then if j < start + n then fill else itemAt items (j - n)
      else itemAt items j := by
  by_cases positive : 1 ≤ j
  · obtain ⟨k, rfl⟩ : ∃ k : Nat, j = k + 1 := ⟨(j - 1).toNat, by omega⟩
    rw [itemAt_succ, itemAt_succ, inserted]
    by_cases moved : start ≤ k + 1
    · rw [if_pos moved]
      by_cases copy : k + 1 < start + n
      · rw [if_pos copy, List.getElem?_append_left (by simp; omega),
          List.getElem?_append_right (by simp; omega), List.getElem?_replicate_of_lt (by simp; omega),
          Option.getD_some]
      · have earlier : (k + 1 - n : Int) = (k - n.toNat : Nat) + 1 := by omega
        rw [if_neg copy, earlier, itemAt_succ, List.getElem?_append_right (by simp; omega),
          List.getElem?_drop]
        congr 2
        simp
        omega
    · rw [if_neg moved, List.getElem?_append_left (by simp; omega),
        List.getElem?_append_left (by simp; omega), List.getElem?_take, if_pos (by omega)]
  · rw [if_neg (by omega), itemAt, itemAt, if_neg positive, if_neg positive]

/-- What a table lists, by positions. -/
theorem lists_iff : content.Lists items ↔ items.length ≤ maxInteger ∧
    ∀ j, Fits j → content.get (at_ j) = itemAt items j := by
  constructor
  · rintro ⟨short, get⟩
    refine ⟨short, fun j fits => ?_⟩
    rw [at_, get, toInt_ofInt fits]
  · rintro ⟨short, get⟩
    refine ⟨short, fun i => ?_⟩
    rw [← at_toInt, get _ (fits_toInt i)]

/-- Moving down removes items. -/
theorem lists_shiftDown (lists : content.Lists items) (first : 1 ≤ start) (down : 0 ≤ n)
    (last : start + n ≤ items.length + 1) :
    (shiftDown content start items.length n).Lists
      (removed items (start - 1).toNat n.toNat) := by
  have low : Int64.minValue.toInt ≤ 0 := by decide
  obtain ⟨short, get⟩ := lists_iff.mp lists
  refine lists_iff.mpr ⟨?_, fun j fits => ?_⟩
  · simp only [removed, List.length_append, List.length_take, List.length_drop]
    omega
  · rw [(get_shiftDown content first down short).1 j fits, itemAt_removed first (by omega) down,
      get j fits]
    by_cases before : start ≤ j
    · rw [if_pos before]
      by_cases inside : j + n ≤ items.length
      · have moved : Fits (j + n) := ⟨by have := fits.1; omega, by omega⟩
        rw [if_pos ⟨before, by omega⟩, if_pos inside, get _ moved]
      · rw [if_neg inside, itemAt_beyond (Int.not_le.mp inside)]
        split
        · rfl
        · exact itemAt_beyond (by omega)
    · rw [if_neg before, if_neg fun inside => before inside.1]

/-- Moving up and filling the gap inserts copies. -/
theorem lists_fillFrom (lists : content.Lists items) (first : 1 ≤ start) (up : 0 < n)
    (last : start ≤ items.length + 1) (short : items.length + n ≤ maxInteger)
    (ends : start + n ≤ maxInteger) (fill : Datum) :
    (fillFrom (shiftUp content start items.length n) start n fill).Lists
      (inserted items (start - 1).toNat n.toNat fill) := by
  have low : Int64.minValue.toInt ≤ 0 := by decide
  obtain ⟨-, get⟩ := lists_iff.mp lists
  refine lists_iff.mpr ⟨?_, fun j fits => ?_⟩
  · simp only [inserted, List.length_append, List.length_take, List.length_drop,
      List.length_replicate]
    omega
  · rw [(get_fillFrom _ first (by omega) fill).1 j fits, (get_shiftUp content first up short).1 j fits,
      itemAt_inserted first last up, get j fits]
    by_cases before : start ≤ j
    · rw [if_pos before]
      by_cases copy : j < start + n
      · rw [if_pos ⟨before, copy⟩, if_pos copy]
      · rw [if_neg copy, if_neg fun inside => copy inside.2]
        by_cases old : j ≤ items.length + n
        · have moved : Fits (j - n) := ⟨by omega, by have := fits.2; omega⟩
          rw [if_pos ⟨by omega, old⟩, get _ moved]
        · rw [if_neg fun inside => old inside.2, itemAt_beyond (by omega), itemAt_beyond (by omega)]
    · rw [if_neg before, if_neg fun inside => before inside.1, if_neg (by omega)]

end Items

end TableOps

end ScriptBridge
