import Mathlib.Algebra.Order.Field.Basic
import Mathlib.Algebra.Order.Field.Power
import Mathlib.Algebra.Order.Field.Rat
import Mathlib.Algebra.Order.Floor.Semifield
import Mathlib.Data.Rat.Floor
import Mathlib.Order.Monotone.Basic
import Mathlib.Tactic.Linarith
import Mathlib.Tactic.NormNum
import Mathlib.Tactic.Positivity
import Mathlib.Tactic.Ring
import ScriptBridge.Number.Double

/-!
The exact value of a binary64 number. Ranks order doubles as their values, an integer of at most 53
bits before its trailing zeros is its own double, and truncation followed by a comparison back
recognises exactly the doubles that are 64-bit integers.
-/

namespace ScriptBridge

namespace Double

/-! ## Magnitudes and sizes -/

/-- What a magnitude amounts to, counted in the least positive number. -/
def size (m : Nat) : Nat :=
  (if m / 2 ^ 52 = 0 then m % 2 ^ 52 else m % 2 ^ 52 + 2 ^ 52) * 2 ^ (m / 2 ^ 52 - 1)

theorem size_of_parts {exponent fraction : Nat} (below : fraction < 2 ^ 52) :
    size (exponent * 2 ^ 52 + fraction)
      = (if exponent = 0 then fraction else fraction + 2 ^ 52) * 2 ^ (exponent - 1) := by
  have quotient : (exponent * 2 ^ 52 + fraction) / 2 ^ 52 = exponent := by omega
  have rest : (exponent * 2 ^ 52 + fraction) % 2 ^ 52 = fraction := by omega
  rw [size, quotient, rest]

theorem size_normal (exponent : Nat) {significand : Nat} (least : 2 ^ 52 ≤ significand)
    (below : significand < 2 ^ 53) :
    size (exponent * 2 ^ 52 + significand) = significand * 2 ^ exponent := by
  have split : exponent * 2 ^ 52 + significand
      = (exponent + 1) * 2 ^ 52 + (significand - 2 ^ 52) := by omega
  rw [split, size_of_parts (by omega), if_neg (Nat.succ_ne_zero _), Nat.add_sub_cancel,
    Nat.sub_add_cancel least]

theorem size_strictMono : StrictMono size := by
  refine strictMono_nat_of_lt_succ fun m => ?_
  obtain ⟨exponent, fraction, below, rfl⟩ :
      ∃ exponent fraction, fraction < 2 ^ 52 ∧ m = exponent * 2 ^ 52 + fraction :=
    ⟨m / 2 ^ 52, m % 2 ^ 52, by omega, by omega⟩
  have unit : 0 < 2 ^ (exponent - 1) := Nat.two_pow_pos _
  by_cases last : fraction + 1 < 2 ^ 52
  · rw [size_of_parts below, Nat.add_assoc, size_of_parts last]
    exact Nat.mul_lt_mul_of_pos_right (by split <;> omega) unit
  · -- The fraction is full: the next magnitude begins the next exponent.
    have full : exponent * 2 ^ 52 + fraction + 1 = exponent * 2 ^ 52 + 2 ^ 52 := by omega
    rw [full, size_normal exponent (Nat.le_refl _) (by norm_num), size_of_parts below]
    by_cases subnormal : exponent = 0
    · simp only [subnormal, if_pos, Nat.zero_sub, pow_zero]
      omega
    · obtain ⟨e, rfl⟩ := Nat.exists_eq_succ_of_ne_zero subnormal
      rw [if_neg subnormal, Nat.succ_sub_one, pow_succ 2 e, mul_comm (2 ^ e), ← mul_assoc]
      exact Nat.mul_lt_mul_of_pos_right (by omega) unit

/-! ## Values -/

/-- The number that a finite double is. -/
def value (d : Double) : ℚ :=
  (if d.isNegative then -1 else 1) * d.significand * (2 : ℚ) ^ d.scale

/-- The least positive number. -/
def least : ℚ := (2 : ℚ) ^ (-1074 : Int)

theorem least_pos : 0 < least := zpow_pos two_pos _

/-- The value of a double, counted in the least positive number. -/
def units (d : Double) : Int :=
  if d.isNegative then -(size d.magnitude : Int) else size d.magnitude

theorem size_magnitude (d : Double) :
    size d.magnitude = d.significand * 2 ^ (d.biasedExponent - 1) := by
  unfold size significand biasedExponent fraction
  rfl

theorem value_eq_units (d : Double) : d.value = d.units * least := by
  have scaled : (2 : ℚ) ^ d.scale = 2 ^ (d.biasedExponent - 1) * least := by
    rw [least, ← zpow_natCast, ← zpow_add₀ two_ne_zero, scale]
    congr 1
    split <;> omega
  rw [value, scaled, units, size_magnitude]
  split <;> push_cast <;> ring

theorem size_eq_zero_iff (m : Nat) : size m = 0 ↔ m = 0 :=
  size_strictMono.injective.eq_iff' rfl

theorem units_le_iff (a b : Double) : a.units ≤ b.units ↔ a.rank ≤ b.rank := by
  have first := size_eq_zero_iff a.magnitude
  have second := size_eq_zero_iff b.magnitude
  have forward := size_strictMono.le_iff_le (a := a.magnitude) (b := b.magnitude)
  have backward := size_strictMono.le_iff_le (a := b.magnitude) (b := a.magnitude)
  unfold units rank
  split <;> split <;> omega

/-- Doubles are ordered by their ranks as by their values. -/
theorem value_le_iff (a b : Double) : a.value ≤ b.value ↔ a.rank ≤ b.rank := by
  rw [value_eq_units, value_eq_units, mul_le_mul_iff_left₀ least_pos, Int.cast_le, units_le_iff]

theorem value_eq_iff (a b : Double) : a.value = b.value ↔ a.rank = b.rank := by
  rw [le_antisymm_iff, value_le_iff, value_le_iff, ← le_antisymm_iff]

/-! ## Integers -/

/-- A number from its parts: a significand with its leading bit, and the exponent of its last one. -/
theorem of_parts (negative : Bool) (exponent : Nat) {significand : Nat} (leading : 2 ^ 52 ≤ significand)
    (below : significand < 2 ^ 53) (finite : exponent ≤ 2045) :
    let d : Double := ⟨UInt64.ofNat (exponent * 2 ^ 52 + significand + if negative then 2 ^ 63 else 0)⟩
    d.isNegative = negative ∧ d.biasedExponent = exponent + 1 ∧ d.significand = significand := by
  intro d
  have bits : d.bits.toNat = exponent * 2 ^ 52 + significand + if negative then 2 ^ 63 else 0 := by
    refine (UInt64.toNat_ofNat' ..).trans (Nat.mod_eq_of_lt ?_)
    cases negative <;> simp <;> omega
  have sign : d.isNegative = negative := by
    simp only [isNegative, bits, twoTo, Nat.pow_eq]
    cases negative <;> simp <;> omega
  have magnitude : d.magnitude = exponent * 2 ^ 52 + significand := by
    simp only [Double.magnitude, bits, twoTo, Nat.pow_eq]
    cases negative <;> simp <;> omega
  have biased : d.biasedExponent = exponent + 1 := by
    simp only [biasedExponent, magnitude, twoTo, Nat.pow_eq]
    omega
  refine ⟨sign, biased, ?_⟩
  simp only [Double.significand, biased, fraction, magnitude, twoTo, Nat.pow_eq]
  rw [if_neg (Nat.succ_ne_zero _)]
  omega

/-- `n * 2 ^ -scale` is a whole number of 53 bits. -/
def Shifted (n significand : Nat) (scale : Int) : Prop :=
  n * 2 ^ (-scale).toNat = significand * 2 ^ scale.toNat ∧
    2 ^ 52 ≤ significand ∧ significand < 2 ^ 53

theorem Shifted.ne_zero {n significand : Nat} {scale : Int} (shifted : Shifted n significand scale) :
    n ≠ 0 := by
  rintro rfl
  obtain ⟨whole, leading, -⟩ := shifted
  have : 0 < significand * 2 ^ scale.toNat := Nat.mul_pos (by omega) (Nat.two_pow_pos _)
  omega

theorem Shifted.log2_eq {n significand : Nat} {scale : Int} (shifted : Shifted n significand scale) :
    (n.log2 : Int) = scale + 52 := by
  have nonzero := shifted.ne_zero
  obtain ⟨whole, leading, below⟩ := shifted
  obtain ⟨k, rfl | rfl⟩ := scale.eq_nat_or_neg
  · have shift : n = significand * 2 ^ k := by simpa using whole
    have place : n.log2 = k + 52 := by
      refine (Nat.log2_eq_iff nonzero).2 ⟨?_, ?_⟩ <;> rw [shift]
      · rw [pow_add, mul_comm]
        exact Nat.mul_le_mul_right _ leading
      · rw [show k + 52 + 1 = 53 + k by omega, pow_add]
        exact Nat.mul_lt_mul_of_pos_right below (Nat.two_pow_pos k)
    omega
  · have shift : n * 2 ^ k = significand := by simpa using whole
    have small : k < 53 := by
      refine (Nat.pow_lt_pow_iff_right one_lt_two).1 (lt_of_le_of_lt ?_ below)
      rw [← shift]
      exact Nat.le_mul_of_pos_left _ (Nat.pos_of_ne_zero nonzero)
    have place : n.log2 = 52 - k := by
      refine (Nat.log2_eq_iff nonzero).2 ⟨?_, ?_⟩
      · refine Nat.le_of_mul_le_mul_right ?_ (Nat.two_pow_pos k)
        rwa [shift, ← pow_add, show 52 - k + k = 52 by omega]
      · refine Nat.lt_of_mul_lt_mul_right (a := 2 ^ k) ?_
        rwa [shift, ← pow_add, show 52 - k + 1 + k = 53 by omega]
    omega

/-- A natural number whose 53 leading bits are all there is to it becomes a double as it is:
these bits are the significand, `scale` is the place of the last of them. -/
theorem ofRatio_whole {n significand : Nat} {scale : Int} (shifted : Shifted n significand scale)
    (negative : Bool) (finite : scale ≤ 971) :
    ofRatio negative n 1 = ⟨UInt64.ofNat ((scale + 1074).toNat * 2 ^ 52 + significand
      + if negative then 2 ^ 63 else 0)⟩ := by
  have nonzero := shifted.ne_zero
  have place := shifted.log2_eq
  obtain ⟨whole, leading, below⟩ := shifted
  have estimate : (n.log2 : Int) - (1 : Nat).log2 = scale + 52 := by
    rw [place, show Nat.log2 1 = 0 by decide, Nat.cast_zero, sub_zero]
  have enough : ¬ n < 2 ^ n.log2 := Nat.not_lt.2 (Nat.log2_self_le nonzero)
  have exponent : scale + 52 ≥ 0 := by omega
  have same : max (scale + 52 - 52) (-1074) = scale := by omega
  have room : (scale + 1074).toNat * 2 ^ 52 + significand ≤ infinity.bits.toNat := by
    have : infinity.bits.toNat = 2047 * 2 ^ 52 := rfl
    omega
  have top : (if scale ≥ 0 then n else n * 2 ^ (-scale).toNat) = significand * 2 ^ scale.toNat := by
    rw [← whole]
    split
    · rw [show (-scale).toNat = 0 by omega, pow_zero, mul_one]
    · rfl
  have bottom : (if scale ≥ 0 then 1 * 2 ^ scale.toNat else 1) = 2 ^ scale.toNat := by
    split
    · exact one_mul _
    · rw [show scale.toNat = 0 by omega, pow_zero]
  have unit : 0 < 2 ^ scale.toNat := Nat.two_pow_pos _
  have exact : (decide (2 * 0 > 2 ^ scale.toNat)
      || (2 * 0 == 2 ^ scale.toNat && significand % 2 == 1)) = false := by
    simp [unit.ne]
  simp only [ofRatio, nonzero, one_ne_zero, decide_false, Bool.or_self, Bool.false_eq_true, if_false,
    estimate, exponent, if_true, twoTo, Nat.pow_eq, show (scale + 52).toNat = n.log2 by omega, one_mul,
    enough, same]
  rw [one_mul] at bottom
  rw [top, bottom, Nat.mul_div_cancel _ unit, Nat.mul_mod_left, exact, if_neg Bool.false_ne_true,
    Nat.min_eq_left room]

theorem Shifted.value_eq {n significand : Nat} {scale : Int} (shifted : Shifted n significand scale) :
    (significand : ℚ) * 2 ^ scale = n := by
  have cast : (n : ℚ) * 2 ^ (-scale).toNat = significand * 2 ^ scale.toNat := by
    exact_mod_cast shifted.1
  have parts : (2 : ℚ) ^ scale = 2 ^ scale.toNat / 2 ^ (-scale).toNat := by
    rw [← zpow_natCast, ← zpow_natCast, ← zpow_sub₀ two_ne_zero]
    congr 1
    omega
  rw [parts, ← mul_div_assoc, ← cast, mul_div_cancel_right₀ _ (pow_ne_zero _ two_ne_zero)]

/-- An integer of at most 53 leading bits is a double. -/
theorem value_ofInt {i : Int} {significand : Nat} {scale : Int}
    (shifted : Shifted i.natAbs significand scale) (finite : scale ≤ 971) :
    (ofInt i).isFinite = true ∧ (ofInt i).value = i := by
  have place := shifted.log2_eq
  obtain ⟨sign, biased, same⟩ := of_parts (decide (i < 0)) (scale + 1074).toNat shifted.2.1
    shifted.2.2 (by omega)
  rw [ofInt, ofRatio_whole shifted _ finite]
  refine ⟨?_, ?_⟩
  · rw [isFinite, biased, decide_eq_true_eq]
    omega
  · have last : (if (scale + 1074).toNat + 1 = 0 then (-1074 : Int)
        else (((scale + 1074).toNat + 1 : Nat) : Int) - 1075) = scale := by
      rw [if_neg (Nat.succ_ne_zero _)]
      omega
    rw [value, Double.scale, biased, last, sign, same, mul_assoc, shifted.value_eq]
    by_cases negative : i < 0
    · simp [negative, Nat.cast_natAbs, abs_of_neg]
    · simp [negative, Nat.cast_natAbs, abs_of_nonneg (not_lt.1 negative)]

/-- A natural number below `2 ^ 1024` with at most 53 bits before its trailing zeros. -/
theorem shifted_of_bits {s : Nat} (e : Nat) (s_pos : 0 < s) (bits : s < 2 ^ 53) :
    Shifted (s * 2 ^ e) (s * 2 ^ (52 - s.log2)) ((e : Int) - (52 - s.log2 : Nat)) := by
  have top : s.log2 < 53 := (Nat.log2_lt s_pos.ne').2 bits
  refine ⟨?_, ?_, ?_⟩
  · rw [mul_assoc, mul_assoc, ← pow_add, ← pow_add]
    congr 2
    omega
  · calc 2 ^ 52 = 2 ^ s.log2 * 2 ^ (52 - s.log2) := by rw [← pow_add]; congr 1; omega
      _ ≤ s * 2 ^ (52 - s.log2) := Nat.mul_le_mul_right _ (Nat.log2_self_le s_pos.ne')
  · calc s * 2 ^ (52 - s.log2) < 2 ^ (s.log2 + 1) * 2 ^ (52 - s.log2) :=
          Nat.mul_lt_mul_of_pos_right Nat.lt_log2_self (Nat.two_pow_pos _)
      _ = 2 ^ 53 := by rw [← pow_add]; congr 1; omega

theorem value_ofInt_bits {i : Int} {s e : Nat} (is : i.natAbs = s * 2 ^ e) (bits : s < 2 ^ 53)
    (range : e ≤ 971) : (ofInt i).isFinite = true ∧ (ofInt i).value = i := by
  rcases Nat.eq_zero_or_pos s with rfl | s_pos
  · have zero : i = 0 := by simpa using is
    subst zero
    have nothing : (ofInt 0).significand = 0 := rfl
    exact ⟨rfl, by simp [value, nothing]⟩
  · have shifted := shifted_of_bits e s_pos bits
    rw [← is] at shifted
    exact value_ofInt shifted (by omega)

/-! ## The integer that a double is -/

theorem significand_lt (d : Double) : d.significand < 2 ^ 53 := by
  unfold significand fraction twoTo
  simp only [Nat.pow_eq]
  split <;> omega

theorem whole_eq_floor (d : Double) : d.whole = ⌊(d.significand : ℚ) * 2 ^ d.scale⌋₊ := by
  unfold whole twoTo
  simp only [Nat.pow_eq]
  split
  · rename_i whole
    rw [show (2 : ℚ) ^ d.scale = ((2 ^ d.scale.toNat : Nat) : ℚ) by
      rw [Nat.cast_pow, Nat.cast_ofNat, ← zpow_natCast, Int.toNat_of_nonneg whole],
      ← Nat.cast_mul, Nat.floor_natCast]
  · rename_i fractional
    rw [show (2 : ℚ) ^ d.scale = ((2 ^ (-d.scale).toNat : Nat) : ℚ)⁻¹ by
      rw [Nat.cast_pow, Nat.cast_ofNat, ← zpow_natCast, ← zpow_neg, Int.toNat_of_nonneg (by omega),
        neg_neg],
      ← div_eq_mul_inv, Nat.floor_div_eq_div]

/-- The whole part is the integer next to the value on the side of zero. -/
theorem integral_eq (d : Double) :
    d.integral = if d.isNegative then ⌈d.value⌉ else ⌊d.value⌋ := by
  have nonneg : 0 ≤ (d.significand : ℚ) * 2 ^ d.scale := by positivity
  unfold integral value
  split
  · rw [neg_one_mul, neg_mul, Int.ceil_neg, whole_eq_floor, Int.natCast_floor_eq_floor nonneg]
  · rw [one_mul, whole_eq_floor, Int.natCast_floor_eq_floor nonneg]

theorem integral_of_value {d : Double} {i : Int} (is : d.value = i) : d.integral = i := by
  rw [integral_eq, is, Int.ceil_intCast, Int.floor_intCast, ite_self]

theorem value_sign (d : Double) : if d.isNegative then d.value ≤ 0 else 0 ≤ d.value := by
  have nonneg : 0 ≤ (d.significand : ℚ) * 2 ^ d.scale := by positivity
  unfold value
  split <;> linarith

theorem integral_range {d : Double} {low high : Int} (least : (low : ℚ) ≤ d.value)
    (most : d.value < high) (around : low ≤ 0 ∧ 0 < high) :
    low ≤ d.integral ∧ d.integral < high := by
  have sign := d.value_sign
  rw [integral_eq]
  split
  · rename_i negative
    rw [if_pos negative] at sign
    have below : ⌈d.value⌉ ≤ 0 := Int.ceil_le.2 (by simpa using sign)
    have above : (low : ℚ) ≤ ⌈d.value⌉ := least.trans (Int.le_ceil _)
    exact ⟨Int.cast_le.1 above, by omega⟩
  · rename_i positive
    rw [if_neg positive] at sign
    have above : 0 ≤ ⌊d.value⌋ := Int.floor_nonneg.2 sign
    exact ⟨by omega, Int.floor_lt.2 most⟩

/-- A double without its fraction still fits the significand. -/
theorem whole_bits (d : Double) (finite : d.isFinite = true) :
    ∃ s e, d.whole = s * 2 ^ e ∧ s < 2 ^ 53 ∧ e ≤ 971 := by
  have bits := d.significand_lt
  unfold whole
  split
  · refine ⟨d.significand, d.scale.toNat, rfl, bits, ?_⟩
    have : d.biasedExponent < 2047 := by simpa [isFinite] using finite
    unfold scale
    split <;> omega
  · exact ⟨_, 0, (Nat.mul_one _).symm, lt_of_le_of_lt (Nat.div_le_self _ _) bits, Nat.zero_le _⟩

theorem value_ofInt_integral {d : Double} (finite : d.isFinite = true) :
    (ofInt d.integral).isFinite = true ∧ (ofInt d.integral).value = d.integral := by
  obtain ⟨s, e, whole, bits, range⟩ := d.whole_bits finite
  refine value_ofInt_bits ?_ bits range
  rw [← whole, integral]
  split
  · exact Int.natAbs_neg _
  · rfl

theorem isNaN_of_isFinite {d : Double} (finite : d.isFinite = true) : d.isNaN = false := by
  have : d.biasedExponent ≠ 2047 := (show d.biasedExponent < 2047 by simpa [isFinite] using finite).ne
  simp [isNaN, this]

theorem numLe_iff {a b : Double} (first : a.isFinite = true) (second : b.isFinite = true) :
    a.numLe b = true ↔ a.value ≤ b.value := by
  simp [numLe, isNaN_of_isFinite first, isNaN_of_isFinite second, value_le_iff]

theorem numLt_iff {a b : Double} (first : a.isFinite = true) (second : b.isFinite = true) :
    a.numLt b = true ↔ a.value < b.value := by
  have above : a.rank < b.rank ↔ ¬ b.rank ≤ a.rank := not_le.symm
  simp [numLt, isNaN_of_isFinite first, isNaN_of_isFinite second, above, ← value_le_iff]

theorem numEq_iff {a b : Double} (first : a.isFinite = true) (second : b.isFinite = true) :
    a.numEq b = true ↔ a.value = b.value := by
  simp [numEq, isNaN_of_isFinite first, isNaN_of_isFinite second, value_eq_iff]

theorem value_lowest : lowest.value = Int64.minValue.toInt := by
  have negative : lowest.isNegative = true := rfl
  have significand : lowest.significand = 2 ^ 52 := rfl
  have scale : lowest.scale = 11 := rfl
  have least : Int64.minValue.toInt = -2 ^ 63 := rfl
  rw [value, negative, significand, scale, least]
  norm_num

theorem value_beyond : beyond.value = ((Int64.maxValue.toInt + 1 : Int) : ℚ) := by
  have positive : beyond.isNegative = false := rfl
  have significand : beyond.significand = 2 ^ 52 := rfl
  have scale : beyond.scale = 11 := rfl
  have most : Int64.maxValue.toInt = 2 ^ 63 - 1 := rfl
  rw [value, positive, significand, scale, most]
  norm_num

/-- In the range of 64-bit integers truncation is exact. -/
theorem toInt_truncate {d : Double} (finite : d.isFinite = true)
    (low : Int64.minValue.toInt ≤ d.integral) (high : d.integral ≤ Int64.maxValue.toInt) :
    d.truncate.toInt = d.integral := by
  rw [truncate, isNaN_of_isFinite finite, if_neg Bool.false_ne_true, min_eq_right high, max_eq_right low]
  exact Int64.toInt_ofInt_of_le low (by have : Int64.maxValue.toInt = 2 ^ 63 - 1 := rfl; omega)

/-- A double is recognised as an integer exactly when its value is that integer. -/
theorem asInteger?_iff (d : Double) (i : Int64) :
    d.asInteger? = some i ↔ d.isFinite = true ∧ d.value = i.toInt := by
  by_cases finite : d.isFinite = true
  swap
  · simp [asInteger?, finite]
  have exact := value_ofInt_integral finite
  have in_range : (lowest.numLe d && d.numLt beyond) = true ↔
      (Int64.minValue.toInt : ℚ) ≤ d.value ∧ d.value < ((Int64.maxValue.toInt + 1 : Int) : ℚ) := by
    rw [Bool.and_eq_true, numLe_iff rfl finite, numLt_iff finite rfl, value_lowest, value_beyond]
  constructor
  · intro found
    simp only [asInteger?, finite, Bool.true_and, in_range] at found
    split at found
    · rename_i range
      obtain ⟨low, high⟩ := integral_range range.1 range.2 (by decide)
      have truncated := toInt_truncate finite low (by omega)
      split at found
      · rename_i same
        obtain rfl := Option.some.inj found
        rw [ofInt64, truncated, numEq_iff exact.1 finite, exact.2] at same
        rw [truncated]
        exact ⟨finite, same.symm⟩
      · cases found
    · cases found
  · rintro ⟨-, is⟩
    have integral := integral_of_value is
    have low := i.minValue_le_toInt
    have high : i.toInt ≤ Int64.maxValue.toInt := i.toInt_le
    have range := in_range.2 ⟨by rw [is]; exact_mod_cast low, by rw [is]; exact_mod_cast Int.lt_add_one_of_le high⟩
    have truncated : d.truncate = i :=
      Int64.toInt_inj.1 ((toInt_truncate finite (by omega) (by omega)).trans integral)
    rw [integral] at exact
    simp only [asInteger?, finite, Bool.true_and, range, if_true, truncated]
    exact if_pos ((numEq_iff exact.1 finite).2 (exact.2.trans is.symm))

end Double

end ScriptBridge
