import ScriptBridge.Number.FloatText
import ScriptBridge.Proofs.Equality
import ScriptBridge.Proofs.IntegerTexts

/-!
Texts of binary64 numbers: the text of a finite number is spelled with a point or an exponent, so
that it reads as a float again, and the texts of the others read as nothing.
-/

namespace ScriptBridge

namespace Decimal

open Numeral (isDigit)

/-- Digits, at least one of them. -/
def Written (digits : List Char) : Prop := digits ≠ [] ∧ ∀ c ∈ digits, isDigit c = true

theorem isDigit_of_mem_zeros {n : Nat} {c : Char} (member : c ∈ zeros n) : isDigit c = true := by
  rw [List.eq_of_mem_replicate member]
  rfl

theorem written_digitsOf (n : Nat) : Written (digitsOf n) :=
  Numeral.isDigits_iff.mp (Numeral.isDigits_toDigits n)

theorem written_round (count num den : Nat) : Written (round count num den).digits := by
  have either (rounded : Nat) (exponent : Int) :
      Written (if rounded = tenTo count then Decimal.mk ('1' :: zeros (count - 1)) (exponent + 1)
        else ⟨digitsOf rounded, exponent⟩).digits := by
    split
    · refine ⟨List.cons_ne_nil _ _, fun c member => ?_⟩
      rcases List.mem_cons.mp member with rfl | zero
      · rfl
      · exact isDigit_of_mem_zeros zero
    · exact written_digitsOf rounded
  exact either _ _

theorem mem_of_mem_trim {digits : List Char} {c : Char} (member : c ∈ trim digits) : c ∈ digits := by
  unfold trim at member
  exact List.mem_reverse.mp ((List.dropWhile_sublist _).mem (List.mem_reverse.mp member))

/-- In positional notation there is a digit before the point. -/
theorem written_positional {d : Decimal} (written : Written d.digits) :
    Written d.positional.1 ∧ ∀ c ∈ d.positional.2, isDigit c = true := by
  obtain ⟨nonempty, digits⟩ := written
  unfold positional
  split
  · refine ⟨⟨List.cons_ne_nil _ _, by simp; rfl⟩, fun c member => ?_⟩
    rcases List.mem_append.mp member with zero | digit
    · exact isDigit_of_mem_zeros zero
    · exact digits c digit
  · dsimp only
    refine ⟨⟨by simp [nonempty], fun c member => ?_⟩, fun c member => ?_⟩
    · rcases List.mem_append.mp member with digit | zero
      · exact digits c (List.mem_of_mem_take digit)
      · exact isDigit_of_mem_zeros zero
    · exact digits c (List.mem_of_mem_drop member)

end Decimal

namespace Numeral.Spelling

open ScriptBridge.Double (joinPoint signed exponentText)
open Decimal (Written)

/-- A decimal numeral whose point goes when no digit follows it. -/
def ofParts (negative : Bool) (whole part : List Char) (exponent : Option Exponent)
    (written : Written whole) (digits : ∀ c ∈ part, isDigit c = true)
    (marked : ∀ e ∈ exponent, isExponentMark e.mark = true) : Spelling where
  sign := if negative then some true else none
  base := .decimal
  whole := whole
  part := if part.isEmpty then none else some part
  exponent := exponent
  digits c member := by
    have either : c ∈ whole ∨ c ∈ part := by cases part <;> simp_all
    have digit : isDigit c = true := either.elim (written.2 c) (digits c)
    simp [Base.digit?, digit]
  nonempty := by simp [written.1]
  marked := marked

variable {negative : Bool} {whole part : List Char} {exponent : Option Exponent}

theorem text_ofParts (written : Written whole) (digits : ∀ c ∈ part, isDigit c = true)
    (marked : ∀ e ∈ exponent, isExponentMark e.mark = true) :
    (ofParts negative whole part exponent written digits marked).text =
      signed negative (joinPoint whole part ++ exponent.elim [] Exponent.text) := by
  cases negative <;> cases part <;>
    simp [text, ofParts, signed, joinPoint, signText, Base.start, mantissa, tail]

end Numeral.Spelling

namespace Double

open Numeral (isDigit isExponentMark Exponent Spelling)
open Decimal (Written)

/-- How an exponent is written that has two digits or more. -/
theorem exists_exponentText (e : Int) :
    ∃ exponent : Exponent, exponent.mark = 'e' ∧ exponent.text = exponentText e := by
  obtain ⟨nonempty, digits⟩ := Decimal.written_digitsOf e.natAbs
  let padded : List Char :=
    if (Decimal.digitsOf e.natAbs).length < 2 then '0' :: Decimal.digitsOf e.natAbs
    else Decimal.digitsOf e.natAbs
  have written : Numeral.isDigits padded = true := by
    rw [Numeral.isDigits_iff]
    dsimp only [padded]
    split
    · refine ⟨List.cons_ne_nil _ _, fun c member => ?_⟩
      rcases List.mem_cons.mp member with rfl | digit
      · rfl
      · exact digits c digit
    · exact ⟨nonempty, digits⟩
  refine ⟨⟨'e', some (decide (e < 0)), padded, written⟩, rfl, ?_⟩
  by_cases below : e < 0 <;>
    simp [Exponent.text, Numeral.signText, exponentText, below, padded]

/-- Fourteen significant digits are written as digits, a part after them that may be empty, and an
exponent or none. -/
theorem exists_generalText (d : Double) : ∃ (whole part : List Char) (exponent : Option Exponent),
    Written whole ∧ (∀ c ∈ part, isDigit c = true) ∧
      (∀ e ∈ exponent, isExponentMark e.mark = true) ∧
      d.generalText = signed d.isNegative (joinPoint whole part ++ exponent.elim [] Exponent.text) := by
  have written : Written (d.significant 14).digits := Decimal.written_round ..
  have first := Decimal.written_positional written
  obtain ⟨nonempty, digits⟩ := written
  unfold generalText
  split
  · exact ⟨['0'], [], none, ⟨List.cons_ne_nil _ _, by simp; rfl⟩, by simp, by simp, rfl⟩
  dsimp only
  split
  · obtain ⟨exponent, mark, text⟩ := exists_exponentText (d.significant 14).exponent
    refine ⟨(d.significant 14).digits.take 1, dropZeros ((d.significant 14).digits.drop 1),
      some exponent, ⟨by simp [nonempty], fun c member => digits c (List.mem_of_mem_take member)⟩,
      fun c member => digits c (List.mem_of_mem_drop (Decimal.mem_of_mem_trim member)), ?_, ?_⟩
    · rintro _ ⟨⟩
      rw [mark]
      rfl
    · rw [Option.elim_some, text]
  · refine ⟨_, _, none, first.1, fun c member => first.2 c (Decimal.mem_of_mem_trim member), by simp,
      ?_⟩
    rw [Option.elim_none, List.append_nil]
    rfl

/-- The characters that integers are written with. -/
def isIntegral (c : Char) : Bool := ('0' ≤ c && c ≤ '9') || c == '-'

theorem all_signed (negative : Bool) (s : List Char) :
    (signed negative s).all isIntegral = s.all isIntegral := by
  cases negative
  · rfl
  · rw [signed, if_pos rfl, List.all_cons]
    rfl

theorem all_of_digits {s : List Char} (digits : ∀ c ∈ s, isDigit c = true) :
    s.all isIntegral = true :=
  List.all_eq_true.mpr fun c member => Bool.or_eq_true_iff.mpr (.inl (digits c member))

theorem isIntegral_of_mark {c : Char} (mark : isExponentMark c = true) : isIntegral c = false := by
  simp only [isExponentMark, Bool.or_eq_true, beq_iff_eq] at mark
  rcases mark with rfl | rfl <;> rfl

theorem textChars_of_isFinite {d : Double} (finite : d.isFinite = true) : d.textChars =
    if d.generalText.all isIntegral then d.generalText ++ ['.', '0'] else d.generalText := by
  have bounded : d.isInfinite = false := by
    have small : d.biasedExponent < 2047 := by simpa [isFinite] using finite
    simp [isInfinite, small.ne]
  rw [textChars, isNaN_of_isFinite finite, bounded]
  rfl

/-- The text of a finite number is a spelling with a point or an exponent. -/
theorem exists_spelling_textChars {d : Double} (finite : d.isFinite = true) :
    ∃ n : Spelling, n.text = d.textChars ∧ ¬ n.IsInteger := by
  obtain ⟨whole, part, exponent, written, digits, marked, general⟩ := exists_generalText d
  rw [textChars_of_isFinite finite, general, all_signed]
  -- Only digits without a point and an exponent are given the point that they lack.
  by_cases bare : part = [] ∧ exponent = none
  · obtain ⟨rfl, rfl⟩ := bare
    have zero : ∀ c ∈ ['0'], isDigit c = true := by simp; rfl
    refine ⟨.ofParts d.isNegative whole ['0'] none written zero marked, ?_, ?_⟩
    · have integral : (joinPoint whole [] ++ Option.elim none [] Exponent.text).all isIntegral = true := by
        simpa [joinPoint] using all_of_digits written.2
      rw [Spelling.text_ofParts, integral, if_pos rfl]
      cases d.isNegative <;> simp [signed, joinPoint]
    · rintro ⟨pointless, -, -⟩
      simp [Spelling.ofParts] at pointless
  · refine ⟨.ofParts d.isNegative whole part exponent written digits marked, ?_, ?_⟩
    · have other : (joinPoint whole part ++ exponent.elim [] Exponent.text).all isIntegral = false := by
        rw [List.all_append, Bool.and_eq_false_iff]
        cases exponent with
        | some e => exact .inr (by simp [Exponent.text, isIntegral_of_mark (marked e rfl)])
        | none =>
          have more : part ≠ [] := fun empty => bare ⟨empty, rfl⟩
          exact .inl (by simp [joinPoint, more, isIntegral])
      rw [Spelling.text_ofParts, other]
      rfl
    · rintro ⟨pointless, plain, -⟩
      refine bare ⟨?_, plain⟩
      simpa [Spelling.ofParts] using pointless

theorem isInfinite_of_not_isFinite {d : Double} (number : d.isNaN = false)
    (infinite : d.isFinite = false) : d.isInfinite = true := by
  have magnitude := magnitude_infinite number infinite
  simp [isInfinite, biasedExponent, fraction, magnitude, twoTo]

/-- The texts of the infinities and of a NaN with its sign are no numerals. -/
theorem parse_special (negative : Bool) :
    Numeral.parse (signed negative ['n', 'a', 'n']) = none ∧
      Numeral.parse (signed negative ['i', 'n', 'f']) = none := by
  cases negative <;> decide

/-- The text of a number reads as a float exactly if the number is finite, and otherwise it does not
read as a number; it never reads as an integer. -/
theorem text_reads (d : Double) :
    ((∃ e, Numeral.parse? d.text = some (.float e)) ↔ d.isFinite = true) ∧
      (Numeral.parse? d.text = none ↔ d.isFinite = false) ∧
      ∀ i, Numeral.parse? d.text ≠ some (.integer i) := by
  have chars : Numeral.parse? d.text = Numeral.parse d.textChars := by
    rw [Numeral.parse?, text, String.toList_ofList]
  rw [chars]
  cases finite : d.isFinite with
  | true =>
    obtain ⟨n, text, float⟩ := exists_spelling_textChars finite
    obtain ⟨e, read⟩ := n.parse_bare.2 float
    rw [text] at read
    simp [read]
  | false =>
    have read : Numeral.parse d.textChars = none := by
      unfold textChars
      split
      · exact (parse_special _).1
      split
      · exact (parse_special _).2
      · rename_i number bounded
        exact absurd (isInfinite_of_not_isFinite (by simpa using number) finite) bounded
    simp [read]

end Double

end ScriptBridge
