import ScriptBridge.Proofs.Numerals
import ScriptBridge.Value

/-!
Texts of integers: the decimal text of a 64-bit integer reads back as that integer, and hexadecimal
digits of any number read as the integer that they denote in two's complement.
-/

namespace ScriptBridge

namespace Numeral

/-- The digits of base 16 in the order of their values, in either case. -/
def hexDigits : List Char := "0123456789abcdef0123456789ABCDEF".toList

/-- The number that hexadecimal digits denote, the first one counting most. -/
def hexNumber (s : List Char) : Nat :=
  Nat.ofDigits 16 (s.map fun c => hexDigits.idxOf c % 16).reverse

theorem hexValue?_of_mem (c : Char) (member : c ∈ hexDigits) :
    hexValue? c = some (hexDigits.idxOf c % 16) := by
  have each : hexDigits.all (fun c => hexValue? c == some (hexDigits.idxOf c % 16)) = true := by decide
  exact eq_of_beq (List.all_eq_true.mp each c member)

theorem isDigits_toDigits (n : Nat) : isDigits (Nat.toDigits 10 n) = true :=
  isDigits_iff.mpr ⟨Nat.toDigits_ne_nil, fun _ =>
    Nat.isDigit_of_mem_toDigits (by decide) (by decide)⟩

theorem decimalValue_toDigits (n : Nat) : decimalValue (Nat.toDigits 10 n) = n :=
  Nat.ofDigitChars_ten_toDigits

namespace Spelling

/-- An integer in decimal digits, with a minus where it is negative. -/
def ofInt (i : Int) : Spelling where
  sign := if i < 0 then some true else none
  base := .decimal
  whole := Nat.toDigits 10 i.natAbs
  part := none
  exponent := none
  digits c member := by
    have digit : isDigit c = true :=
      (isDigits_iff.mp (isDigits_toDigits i.natAbs)).2 c (by simpa using member)
    simp [Base.digit?, digit]
  nonempty := by simp
  marked := by simp

theorem text_ofInt (i : Int) : (ofInt i).text = (toString i).toList := by
  have shown : (toString i).toList =
      (if i < 0 then ['-'] else []) ++ Nat.toDigits 10 i.natAbs := by
    rw [Int.toString_eq_repr, Int.repr_eq_if]
    by_cases negative : i < 0
    · rw [if_neg (by omega), if_pos negative, String.toList_append, Nat.toList_repr,
        show (-i).toNat = i.natAbs by omega]
      rfl
    · rw [if_pos (by omega), if_neg negative, Nat.toList_repr, show i.toNat = i.natAbs by omega]
      rfl
  rw [shown]
  by_cases negative : i < 0 <;>
    simp [text, ofInt, negative, signText, Base.start, mantissa, tail]

theorem value_ofInt (i : Int) : (ofInt i).value = i := by
  have size : (ofInt i).size = i.natAbs :=
    (decimalValue_whole _ rfl).symm.trans (decimalValue_toDigits _)
  have sign : (ofInt i).sign = if i < 0 then some true else none := rfl
  rw [value, size, sign]
  by_cases negative : i < 0
  · rw [if_pos negative, if_pos rfl]
    omega
  · rw [if_neg negative, if_neg (by simp)]
    omega

/-- Hexadecimal digits with a sign or none. -/
def ofHex (sign : Option Bool) (h : List Char) (nonempty : h ≠ []) (digits : ∀ c ∈ h, c ∈ hexDigits) :
    Spelling where
  sign := sign
  base := .hexadecimal false
  whole := h
  part := none
  exponent := none
  digits c member := by
    have digit := hexValue?_of_mem c (digits c (by simpa using member))
    simp [Base.digit?, digit]
  nonempty := by simpa using nonempty
  marked := by simp

variable {sign : Option Bool} {h : List Char} (nonempty : h ≠ []) (digits : ∀ c ∈ h, c ∈ hexDigits)

theorem text_ofHex : (ofHex sign h nonempty digits).text = signText sign ++ '0' :: 'x' :: h := by
  simp [text, ofHex, Base.start, mantissa, tail]

theorem size_ofHex : (ofHex sign h nonempty digits).size = hexNumber h := by
  have values : h.map (fun c => (hexValue? c).getD 0) = h.map fun c => hexDigits.idxOf c % 16 :=
    List.map_congr_left fun c member => by rw [hexValue?_of_mem c (digits c member)]; rfl
  rw [hexNumber, ← values]
  rfl

end Spelling

/-- A spelling without blanks around it. -/
theorem Spelling.parse_bare (n : Spelling) :
    (n.IsInteger → parse n.text = some (.integer (Int64.ofInt n.value))) ∧
      (¬ n.IsInteger → ∃ d, parse n.text = some (.float d)) := by
  have read := @parse_text n [] [] (by simp)
  rwa [List.nil_append, List.append_nil] at read

theorem parse?_of_text {s : String} {n : Spelling} (text : s.toList = n.text)
    (integer : n.IsInteger) : parse? s = some (.integer (Int64.ofInt n.value)) := by
  rw [parse?, text, n.parse_bare.1 integer]

/-- Integers are read from their decimal texts. -/
theorem parse?_toString (i : Int64) : parse? (toString i.toInt) = some (.integer i) := by
  have fits : (Spelling.ofInt i.toInt).IsInteger := by
    refine ⟨rfl, rfl, .inr ?_⟩
    rw [Spelling.value_ofInt]
    exact ⟨i.minValue_le_toInt, i.toInt_le⟩
  rw [parse?_of_text (Spelling.text_ofInt i.toInt).symm fits, Spelling.value_ofInt, Int64.ofInt_toInt]

/-- Hexadecimal digits are read modulo `2 ^ 64`. -/
theorem parse?_hex (s : String) (sign : Option Bool) {h : List Char} (nonempty : h ≠ [])
    (digits : ∀ c ∈ h, c ∈ hexDigits) (text : s.toList = signText sign ++ '0' :: 'x' :: h) :
    parse? s = some (.integer (Int64.ofInt
      (if sign = some true then -(hexNumber h : Int) else hexNumber h))) := by
  have spelled : (Spelling.ofHex sign h nonempty digits).text = _ :=
    Spelling.text_ofHex nonempty digits
  rw [parse?_of_text (text.trans spelled.symm) ⟨rfl, rfl, .inl nofun⟩, Spelling.value,
    Spelling.size_ofHex]
  rfl

/-- Every 64-bit integer converts to a text, and that text is read as this integer and converts back
to it. Hexadecimal digits after `0x`, however many they are, are read as the 64-bit integer that
differs from their number by a multiple of `2 ^ 64`, after `-0x` as the one for its negation. -/
theorem integers_read :
    (∀ i : Int64, ∃ s, (Value.int i).toText = .ok s ∧ parse? s = some (.integer i) ∧
      (Value.text s).toInteger = .ok i) ∧
    ∀ h : String, h ≠ "" → (∀ c ∈ h.toList, c ∈ hexDigits) →
      ∃ i j : Int64, parse? ("0x" ++ h) = some (.integer i) ∧
        i.toInt = (hexNumber h.toList : Int).bmod (2 ^ 64) ∧
        parse? ("-0x" ++ h) = some (.integer j) ∧
        j.toInt = (-(hexNumber h.toList : Int)).bmod (2 ^ 64) := by
  constructor
  · intro i
    have read := parse?_toString i
    refine ⟨toString i.toInt, rfl, read, ?_⟩
    have converts : (Value.text (toString i.toInt)).toInteger? = some i := by
      rw [Value.toInteger?, read]
      rfl
    rw [Value.toInteger, converts]
    rfl
  · intro h nonempty digits
    have nonempty : h.toList ≠ [] := by simpa using nonempty
    have plain := parse?_hex ("0x" ++ h) none nonempty digits String.toList_append
    have minus := parse?_hex ("-0x" ++ h) (some true) nonempty digits String.toList_append
    exact ⟨_, _, plain, Int64.toInt_ofInt, minus, Int64.toInt_ofInt⟩

/-- Sixteen digits fill the word, and the one before them is lost. -/
theorem integers_read_wrapped :
    ∃ i j : Int64, parse? "0x1fFFFFFFFFFFFFFfe" = some (.integer i) ∧ i.toInt = -2 ∧
      parse? "-0x1fFFFFFFFFFFFFFfe" = some (.integer j) ∧ j.toInt = 2 := by
  have digits : "1fFFFFFFFFFFFFFfe".toList.all (fun c => decide (c ∈ hexDigits)) = true := by decide
  obtain ⟨i, j, plain, wraps, minus, negated⟩ :=
    integers_read.2 "1fFFFFFFFFFFFFFfe" (by decide) fun c member =>
      of_decide_eq_true (List.all_eq_true.mp digits c member)
  exact ⟨i, j, plain, wraps.trans (by decide), minus, negated.trans (by decide)⟩

end Numeral

end ScriptBridge
