import Mathlib.Data.List.TakeWhile
import Mathlib.Data.Nat.Digits.Defs
import ScriptBridge.Number.Numeral

/-!
How numerals are spelled: a grammar for the texts that read as a number, and where the parts of a
spelling begin and end.
-/

namespace ScriptBridge

namespace Text

/-- A text is what trimming leaves of it, between blanks. -/
theorem exists_trim (s : List Char) : ∃ before after, s = before ++ trim s ++ after ∧
    ∀ c ∈ before ++ after, isBlank c = true := by
  have left := List.takeWhile_append_dropWhile (p := isBlank) (l := s)
  have right := List.takeWhile_append_dropWhile (p := isBlank) (l := (s.dropWhile isBlank).reverse)
  refine ⟨s.takeWhile isBlank, ((s.dropWhile isBlank).reverse.takeWhile isBlank).reverse, ?_, ?_⟩
  · have middle := congrArg List.reverse right
    rw [List.reverse_append, List.reverse_reverse] at middle
    rw [List.append_assoc, trim, middle, left]
  · intro c member
    rcases List.mem_append.mp member with first | last
    · exact List.mem_takeWhile_imp first
    · exact List.mem_takeWhile_imp (List.mem_reverse.mp last)

/-- Blanks around a text without blanks are what trimming takes away. -/
theorem trim_of_blanks {before s after : List Char}
    (blank : ∀ c ∈ before ++ after, isBlank c = true)
    (solid : ∀ c ∈ s, isBlank c = false) : trim (before ++ s ++ after) = s := by
  have stop (s : List Char) (solid : ∀ c ∈ s, isBlank c = false) : s.dropWhile isBlank = s := by
    cases s with
    | nil => rfl
    | cons c rest => exact List.dropWhile_cons_of_neg (by simp [solid c (by simp)])
  have first : ∀ c ∈ before, isBlank c = true := fun c member => blank c (by simp [member])
  have last : ∀ c ∈ after.reverse, isBlank c = true := fun c member =>
    blank c (by simp [List.mem_reverse.mp member])
  cases s with
  | nil =>
    have all : ∀ c ∈ before ++ [] ++ after, isBlank c = true := by simpa using blank
    rw [trim, List.dropWhile_eq_nil_iff.mpr all]
    rfl
  | cons c rest =>
    have onward : (before ++ c :: rest ++ after).dropWhile isBlank = c :: rest ++ after := by
      rw [List.append_assoc, List.dropWhile_append_of_pos first]
      exact List.dropWhile_cons_of_neg (by simp [solid c (by simp)])
    rw [trim, onward, List.reverse_append, List.dropWhile_append_of_pos last,
      stop _ (fun d member => solid d (List.mem_reverse.mp member)), List.reverse_reverse]

theorem splitOnce_eq_none {separator : Char} {s : List Char} (absent : separator ∉ s) :
    splitOnce separator s = none := by
  induction s with
  | nil => rfl
  | cons c rest ih =>
    obtain ⟨other, absent⟩ := not_or.mp (fun h => absent (List.mem_cons.mpr h))
    rw [splitOnce, if_neg (Ne.symm other), ih absent]
    rfl

theorem splitOnce_append {separator : Char} {before : List Char} (absent : separator ∉ before)
    (after : List Char) :
    splitOnce separator (before ++ separator :: after) = some (before, after) := by
  induction before with
  | nil => simp [splitOnce]
  | cons c rest ih =>
    obtain ⟨other, absent⟩ := not_or.mp (fun h => absent (List.mem_cons.mpr h))
    rw [List.cons_append, splitOnce, if_neg (Ne.symm other), ih absent]
    rfl

/-- The first separator is where a text is split. -/
theorem eq_of_splitOnce {separator : Char} {s before after : List Char}
    (found : splitOnce separator s = some (before, after)) : s = before ++ separator :: after := by
  induction s generalizing before with
  | nil => cases found
  | cons c rest ih =>
    rw [splitOnce] at found
    split at found
    · rename_i same
      cases found
      rw [same]
      rfl
    · obtain ⟨⟨b, a⟩, split, same⟩ := Option.map_eq_some_iff.mp found
      cases same
      rw [ih split]
      rfl

end Text

namespace Numeral

/-- The characters of ASCII that show are no blanks. -/
theorem isBlank_of_visible {c : Char} (low : 0x21 ≤ c.toNat) (high : c.toNat ≤ 0x7e) :
    Text.isBlank c = false := by
  simp only [Text.isBlank, Text.blankRanges, List.any_cons, List.any_nil]
  simp
  omega

theorem le_iff_toNat {a b : Char} : a ≤ b ↔ a.toNat ≤ b.toNat := UInt32.le_iff_toNat_le

theorem isDigit_iff {c : Char} : isDigit c = true ↔ 0x30 ≤ c.toNat ∧ c.toNat ≤ 0x39 := by
  simp [isDigit, le_iff_toNat]

theorem hexValue?_isSome_iff {c : Char} : (hexValue? c).isSome = true ↔
    0x30 ≤ c.toNat ∧ c.toNat ≤ 0x39 ∨ 0x61 ≤ c.toNat ∧ c.toNat ≤ 0x66 ∨
      0x41 ≤ c.toNat ∧ c.toNat ≤ 0x46 := by
  simp only [hexValue?, isDigit_iff, le_iff_toNat]
  have : 'a'.toNat = 0x61 ∧ 'f'.toNat = 0x66 ∧ 'A'.toNat = 0x41 ∧ 'F'.toNat = 0x46 := by decide
  split
  · simp; omega
  · split
    · simp; omega
    · split
      · simp; omega
      · simp; omega

/-- The base of a numeral; the `x` of a hexadecimal one may be a capital. -/
inductive Base where
  | decimal
  | hexadecimal (capital : Bool)
deriving DecidableEq

namespace Base

/-- How numerals of the base begin. -/
def start : Base → List Char
  | decimal => []
  | hexadecimal capital => ['0', if capital then 'X' else 'x']

def size : Base → Nat
  | decimal => 10
  | hexadecimal _ => 16

/-- The value of a digit of the base. -/
def digit? : Base → Char → Option Nat
  | decimal, c => if isDigit c then some (digitValue c) else none
  | hexadecimal _, c => hexValue? c

/-- Whether an exponent begins with a letter. -/
def isMark : Base → Char → Bool
  | decimal => isExponentMark
  | hexadecimal _ => isBinaryMark

end Base

/-- A sign as it is written: `some true` is a minus, `some false` a plus. -/
def signText : Option Bool → List Char
  | none => []
  | some true => ['-']
  | some false => ['+']

/-- How an exponent is written. -/
structure Exponent where
  mark : Char
  sign : Option Bool
  digits : List Char
  isDigits : isDigits digits = true

def Exponent.text (e : Exponent) : List Char := e.mark :: (signText e.sign ++ e.digits)

/-- The power of two that an exponent gives, which is kept within 32 bits. -/
def Exponent.power (e : Exponent) : Int :=
  let size := min (decimalValue e.digits : Int) Int32.maxValue.toInt
  if e.sign = some true then -size else size

/-- How a numeral is written: a sign, digits with a point among them or none, and an exponent or
none. -/
structure Spelling where
  sign : Option Bool
  base : Base
  whole : List Char
  part : Option (List Char)
  exponent : Option Exponent
  digits : ∀ c ∈ whole ++ part.getD [], (base.digit? c).isSome = true
  nonempty : whole ++ part.getD [] ≠ []
  marked : ∀ e ∈ exponent, base.isMark e.mark = true

namespace Spelling

/-- The digits and the point. -/
def mantissa (n : Spelling) : List Char := n.whole ++ n.part.elim [] ('.' :: ·)

/-- The exponent, if there is one. -/
def tail (n : Spelling) : List Char := n.exponent.elim [] Exponent.text

def text (n : Spelling) : List Char :=
  signText n.sign ++ (n.base.start ++ (n.mantissa ++ n.tail))

/-- The number that the digits before the point are. -/
def size (n : Spelling) : Nat :=
  Nat.ofDigits n.base.size (n.whole.map fun c => (n.base.digit? c).getD 0).reverse

/-- That number with the sign. -/
def value (n : Spelling) : Int := if n.sign = some true then -n.size else n.size

/-- The values of all digits. -/
def figures (n : Spelling) : List Nat :=
  (n.whole ++ n.part.getD []).map fun c => (n.base.digit? c).getD 0

/-- The number that all digits are when the point is left out. -/
def coefficient (n : Spelling) : Nat := Nat.ofDigits n.base.size n.figures.reverse

/-- The power of two with which the point of a hexadecimal numeral and its exponent multiply. -/
def binaryScale (n : Spelling) : Int :=
  clampExponent (clampExponent (-4 * (n.part.getD []).length) + n.exponent.elim 0 Exponent.power)

/-- What a hexadecimal numeral is as a float: the digits, summed up with rounding, times that power. -/
def hexFloat (n : Spelling) : Double :=
  let sum := hexSum .zero n.figures
  if sum.isZero then .zero else sum.mul (Double.powerOfTwo n.binaryScale)

/-- Whether the numeral is an integer: it has neither point nor exponent, and is hexadecimal or
fits in 64 bits. -/
def IsInteger (n : Spelling) : Prop :=
  n.part = none ∧ n.exponent = none ∧
    (n.base ≠ .decimal ∨ Int64.minValue.toInt ≤ n.value ∧ n.value ≤ Int64.maxValue.toInt)

end Spelling

theorem splitSign_signText (sign : Option Bool) {body : List Char}
    (plain : ∀ c ∈ body.head?, c ≠ '-' ∧ c ≠ '+') :
    splitSign (signText sign ++ body) = (sign == some true, body) := by
  match sign with
  | some true => rfl
  | some false => rfl
  | none =>
    match body with
    | [] => rfl
    | c :: rest =>
      obtain ⟨minus, plus⟩ := plain c rfl
      simp only [signText, List.nil_append]
      rw [splitSign]
      · rfl
      · rintro _ ⟨⟩
        exact minus rfl
      · rintro _ ⟨⟩
        exact plus rfl

theorem exists_sign (s : List Char) : ∃ sign, s = signText sign ++ (splitSign s).2 ∧
    (splitSign s).1 = (sign == some true) := by
  unfold splitSign
  split
  · exact ⟨some true, rfl, rfl⟩
  · exact ⟨some false, rfl, rfl⟩
  · exact ⟨none, rfl, rfl⟩

theorem isDigits_iff {s : List Char} : isDigits s = true ↔ s ≠ [] ∧ ∀ c ∈ s, isDigit c = true := by
  simp [isDigits]

theorem head_of_isDigits {s : List Char} (digits : isDigits s = true) :
    ∀ c ∈ s.head?, c ≠ '-' ∧ c ≠ '+' := by
  intro c member
  have digit := isDigit_iff.mp ((isDigits_iff.mp digits).2 c (List.mem_of_mem_head? member))
  constructor <;> rintro rfl <;> revert digit <;> decide

namespace Exponent

theorem splitSign_text (e : Exponent) :
    splitSign (signText e.sign ++ e.digits) = (e.sign == some true, e.digits) :=
  splitSign_signText e.sign (head_of_isDigits e.isDigits)

end Exponent

/-- A text whose end is a signed string of digits. -/
theorem exists_exponent (mark : Char) {s : List Char} (digits : isDigits (splitSign s).2 = true) :
    ∃ e : Exponent, e.mark = mark ∧ e.text = mark :: s := by
  obtain ⟨sign, same, -⟩ := exists_sign s
  exact ⟨⟨mark, sign, _, digits⟩, rfl, by rw [Exponent.text, ← same]⟩

namespace Base

variable {base : Base} {c : Char}

theorem isMark_of_digit (digit : (base.digit? c).isSome = true) : base.isMark c = false := by
  cases base with
  | decimal =>
    have range : isDigit c = true := by simpa [digit?] using digit
    rw [isDigit_iff] at range
    simp only [isMark, isExponentMark, Bool.or_eq_false_iff, beq_eq_false_iff_ne]
    constructor <;> rintro rfl <;> revert range <;> decide
  | hexadecimal capital =>
    have range := hexValue?_isSome_iff.mp digit
    simp only [isMark, isBinaryMark, Bool.or_eq_false_iff, beq_eq_false_iff_ne]
    constructor <;> rintro rfl <;> revert range <;> decide

theorem digit?_point : base.digit? '.' = none := by
  cases base <;> rfl

theorem isMark_point : base.isMark '.' = false := by
  cases base <;> rfl

/-- Digits and marks stand after the signs among the visible characters. -/
theorem visible (either : (base.digit? c).isSome = true ∨ base.isMark c = true) :
    0x30 ≤ c.toNat ∧ c.toNat ≤ 0x7e := by
  rcases either with digit | mark
  · cases base with
    | decimal =>
      have range : isDigit c = true := by simpa [digit?] using digit
      rw [isDigit_iff] at range
      omega
    | hexadecimal capital =>
      have range := hexValue?_isSome_iff.mp digit
      omega
  · cases base with
    | decimal =>
      simp only [isMark, isExponentMark, Bool.or_eq_true, beq_iff_eq] at mark
      rcases mark with rfl | rfl <;> decide
    | hexadecimal capital =>
      simp only [isMark, isBinaryMark, Bool.or_eq_true, beq_iff_eq] at mark
      rcases mark with rfl | rfl <;> decide

end Base

namespace Spelling

variable (n : Spelling)

theorem mem_mantissa {c : Char} (member : c ∈ n.mantissa) :
    c = '.' ∨ (n.base.digit? c).isSome = true := by
  have digits := n.digits
  unfold mantissa at member
  cases part : n.part with
  | none =>
    simp only [part, Option.elim_none, List.append_nil] at member
    exact .inr (digits c (by simp [member]))
  | some part' =>
    simp only [part, Option.elim_some, List.mem_append, List.mem_cons] at member
    rcases member with whole | rfl | frac
    · exact .inr (digits c (by simp [whole]))
    · exact .inl rfl
    · exact .inr (digits c (by simp [part, frac]))

theorem point_notMem_whole : '.' ∉ n.whole := by
  intro member
  have digit := n.digits '.' (by simp [member])
  simp [Base.digit?_point] at digit

theorem splitOnce_mantissa :
    Text.splitOnce '.' n.mantissa = n.part.map fun part => (n.whole, part) := by
  unfold mantissa
  cases n.part with
  | none => simpa using Text.splitOnce_eq_none n.point_notMem_whole
  | some part => exact Text.splitOnce_append n.point_notMem_whole part

theorem mark_of_tail {c : Char} (head : c ∈ n.tail.head?) : n.base.isMark c = true := by
  unfold tail at head
  cases exponent : n.exponent with
  | none => simp [exponent] at head
  | some e =>
    simp only [exponent, Option.elim_some, Exponent.text, List.head?_cons,
      Option.mem_def, Option.some.injEq] at head
    exact head ▸ n.marked e exponent

theorem unmarked_mantissa {c : Char} (member : c ∈ n.mantissa) : n.base.isMark c = false := by
  rcases n.mem_mantissa member with rfl | digit
  · exact Base.isMark_point
  · exact Base.isMark_of_digit digit

/-- The mantissa is all that comes before the first letter of an exponent. -/
theorem takeWhile_body :
    (n.mantissa ++ n.tail).takeWhile (!n.base.isMark ·) = n.mantissa := by
  rw [List.takeWhile_append_of_pos fun c member => by simp [n.unmarked_mantissa member]]
  cases same : n.tail with
  | nil => simp
  | cons c rest =>
    have mark := n.mark_of_tail (c := c) (by simp [same])
    rw [List.takeWhile_cons_of_neg (by simp [mark]), List.append_nil]

theorem dropWhile_body :
    (n.mantissa ++ n.tail).dropWhile (!n.base.isMark ·) = n.tail := by
  rw [List.dropWhile_append_of_pos fun c member => by simp [n.unmarked_mantissa member]]
  cases same : n.tail with
  | nil => rfl
  | cons c rest =>
    have mark := n.mark_of_tail (c := c) (by simp [same])
    exact List.dropWhile_cons_of_neg (by simp [mark])

/-- What follows the sign does not begin with one. -/
theorem head_body : ∀ c ∈ (n.base.start ++ (n.mantissa ++ n.tail)).head?, c ≠ '-' ∧ c ≠ '+' := by
  intro c head
  have unsigned (c : Char) (either : c = '.' ∨ (n.base.digit? c).isSome = true ∨
      n.base.isMark c = true) : c ≠ '-' ∧ c ≠ '+' := by
    rcases either with rfl | either
    · decide
    · have range := Base.visible either
      constructor <;> rintro rfl <;> revert range <;> decide
  cases base : n.base with
  | hexadecimal capital =>
    simp only [base, Base.start, List.cons_append, List.head?_cons, Option.mem_def,
      Option.some.injEq] at head
    subst head
    decide
  | decimal =>
    simp only [base, Base.start, List.nil_append] at head
    apply unsigned
    cases mantissa : n.mantissa with
    | nil =>
      rw [mantissa, List.nil_append] at head
      exact .inr (.inr (n.mark_of_tail head))
    | cons d rest =>
      rw [mantissa] at head
      obtain rfl : d = c := by simpa using head
      rcases n.mem_mantissa (c := d) (by simp [mantissa]) with point | digit
      · exact .inl point
      · exact .inr (.inl digit)

theorem splitSign_text :
    splitSign n.text = (n.sign == some true, n.base.start ++ (n.mantissa ++ n.tail)) :=
  splitSign_signText n.sign n.head_body

theorem mem_signText {sign : Option Bool} {c : Char} (member : c ∈ signText sign) :
    c = '-' ∨ c = '+' := by
  match sign with
  | none => simp [signText] at member
  | some true => exact .inl (by simpa [signText] using member)
  | some false => exact .inr (by simpa [signText] using member)

theorem visible_signText {sign : Option Bool} {c : Char} (member : c ∈ signText sign) :
    0x21 ≤ c.toNat ∧ c.toNat ≤ 0x7e := by
  match sign with
  | none => simp [signText] at member
  | some true =>
    obtain rfl : c = '-' := by simpa [signText] using member
    decide
  | some false =>
    obtain rfl : c = '+' := by simpa [signText] using member
    decide

/-- There are no blanks in a numeral. -/
theorem solid {c : Char} (member : c ∈ n.text) : Text.isBlank c = false := by
  suffices visible : 0x21 ≤ c.toNat ∧ c.toNat ≤ 0x7e from isBlank_of_visible visible.1 visible.2
  simp only [text, List.mem_append] at member
  rcases member with sign | start | mantissa | tail
  · exact visible_signText sign
  · cases base : n.base with
    | decimal => simp [base, Base.start] at start
    | hexadecimal capital =>
      rw [base] at start
      cases capital <;>
        · obtain rfl | rfl := by simpa [Base.start] using start
          all_goals decide
  · rcases n.mem_mantissa mantissa with rfl | digit
    · decide
    · have range := Base.visible (.inl digit)
      omega
  · unfold Spelling.tail at tail
    cases exponent : n.exponent with
    | none => simp [exponent] at tail
    | some e =>
      simp only [exponent, Option.elim_some, Exponent.text, List.mem_cons, List.mem_append] at tail
      rcases tail with rfl | sign | digit
      · have range := Base.visible (.inr (n.marked e exponent))
        omega
      · exact visible_signText sign
      · have range := isDigit_iff.mp ((isDigits_iff.mp e.isDigits).2 c digit)
        omega

theorem trim_text {before after : List Char}
    (blank : ∀ c ∈ before ++ after, Text.isBlank c = true) :
    Text.trim (before ++ n.text ++ after) = n.text :=
  Text.trim_of_blanks blank fun _ => n.solid

theorem ofDigits_eq_foldl (base : Nat) (digits : List Nat) :
    Nat.ofDigits base digits.reverse = digits.foldl (fun value d => base * value + d) 0 := by
  rw [Nat.ofDigits_eq_foldr, List.foldr_reverse]
  congr
  funext value d
  simp [Nat.add_comm]

end Spelling

end Numeral

end ScriptBridge
