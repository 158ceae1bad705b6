import ScriptBridge.Proofs.Arithmetic
import ScriptBridge.Proofs.Rounding

/-!
Hexadecimal floats. Digits are summed up with rounding, so that a large sum overflows, and multiplied by a
power of two that is zero where it is too small: where both happen, and only there, a text reads as a NaN.
-/

namespace ScriptBridge

namespace Double

open Float.Model (UnpackedFloat)
open Float.Model.UnpackedFloat (Sign)

/-! ## Sums of digits -/

theorem shifted_iff {n m p c : Nat} : Shifted n m ((p : Int) - c) ↔
    n * 2 ^ c = m * 2 ^ p ∧ 2 ^ 52 ≤ m ∧ m < 2 ^ 53 := by
  refine and_congr_left fun _ => ?_
  rcases Nat.le_total c p with le | le
  · have low : (-((p : Int) - c)).toNat = 0 := by omega
    have high : ((p : Int) - c).toNat = p - c := by omega
    have power : 2 ^ p = 2 ^ (p - c) * 2 ^ c := by
      rw [← Nat.pow_add, Nat.sub_add_cancel le]
    rw [low, high, Nat.pow_zero, Nat.mul_one, power, ← Nat.mul_assoc,
      Nat.mul_left_inj (Nat.two_pow_pos c).ne']
  · have low : (-((p : Int) - c)).toNat = c - p := by omega
    have high : ((p : Int) - c).toNat = 0 := by omega
    have power : 2 ^ c = 2 ^ (c - p) * 2 ^ p := by
      rw [← Nat.pow_add, Nat.sub_add_cancel le]
    rw [low, high, Nat.pow_zero, Nat.mul_one, power, ← Nat.mul_assoc,
      Nat.mul_left_inj (Nat.two_pow_pos p).ne']

/-- The number that a natural one becomes if it has no more than 53 bits before its trailing zeros:
zero, an exact one, and infinity for what is too large. -/
inductive Stands (d : Double) (n : Nat) : Prop where
  | zero (none : n = 0) (view : d.unpacked = .zero .positive)
  | finite {m : Nat} {e : Int} (shifted : Shifted n m e) (small : e ≤ 971) (pos : 0 < m)
      (view : d.unpacked = .finite .positive m e pos)
  | infinite (large : 2 ^ 1024 ≤ n) (view : d.unpacked = .infinity .positive)

theorem Shifted.lt_iff {n m : Nat} {e : Int} (shifted : Shifted n m e) :
    n < 2 ^ 1024 ↔ e ≤ 971 := by
  have place := shifted.log2_eq
  rw [← Nat.log2_lt shifted.ne_zero]
  omega

theorem Shifted.nearest_eq {n m : Nat} {e : Int} (shifted : Shifted n m e) : nearest n = n := by
  have place := shifted.log2_eq
  obtain rfl : e = (n.log2 : Int) - (52 : Nat) := by omega
  obtain ⟨value, -, bits⟩ := shifted_iff.mp shifted
  have scaled : nearest n * 2 ^ 52 = n * 2 ^ 52 := by
    rw [← nearest_scale, value, nearest_of_bits bits]
  exact Nat.eq_of_mul_eq_mul_right (Nat.two_pow_pos 52) scaled

variable {d : Double} {n : Nat}

theorem stands_settled_infinity (large : 2 ^ 1024 ≤ n) : Stands (settled (.infinity .positive)) n :=
  .infinite large (unpacked_infinity _)

/-- A significand that is rounded. -/
theorem stands_rounded {s p c : Nat} (leading : 52 ≤ s.log2) (far : c ≤ 1074)
    (value : n * 2 ^ c = s * 2 ^ p) :
    Stands (settled (.roundWithAccuracy .binary64 .positive s ((p : Int) - c) .exact))
      (nearest n) := by
  obtain ⟨m, t, pos, least, bits, rounds, view⟩ :=
    roundWithAccuracy_exact .positive (e := (p : Int) - c) leading (by omega)
  have shifted : Shifted (nearest n) m (((t + p : Nat) : Int) - c) := by
    refine shifted_iff.mpr ⟨?_, least, bits⟩
    rw [← nearest_scale, value, nearest_scale, ← rounds, Nat.pow_add, Nat.mul_assoc]
  have place := shifted.log2_eq
  rw [show (p : Int) - c + t = ((t + p : Nat) : Int) - c by omega] at view
  rw [view, settled_eq rfl]
  by_cases small : ((t + p : Nat) : Int) - c ≤ 971
  · refine .finite shifted small pos (unpacked_packed pos (.inr ⟨least, bits, ?_, small⟩))
    omega
  · rw [packed_overflow pos (by omega)]
    exact .infinite (Nat.le_of_not_lt fun below => small (shifted.lt_iff.mp below))
      (unpacked_infinity _)

/-- A natural number of 53 bits is exact. -/
theorem stands_ofInt {k : Nat} (bits : k < 2 ^ 53) : Stands (ofInt k) k := by
  rcases Nat.eq_zero_or_pos k with rfl | pos
  · exact .zero rfl rfl
  obtain ⟨m, e, shifted, small⟩ : ∃ m e, Shifted k m e ∧ e ≤ 971 :=
    ⟨_, _, by simpa using shifted_of_bits 0 pos bits, by omega⟩
  have place := shifted.log2_eq
  obtain ⟨sign, biased, same⟩ :=
    of_parts false (e + 1074).toNat shifted.2.1 shifted.2.2 (by omega)
  rw [← ofRatio_whole shifted false small] at sign biased same
  have natural : ¬ (k : Int) < 0 := by omega
  have whole : ofInt k = ofRatio false k 1 := by simp [ofInt, natural]
  rw [whole]
  have scale : (ofRatio false k 1).scale = e := by
    rw [Double.scale, biased, if_neg (Nat.succ_ne_zero _)]
    omega
  cases (ofRatio false k 1).kind with
  | nan is => simp [isNaN, biased] at is; omega
  | infinite _ is => simp [isInfinite, biased] at is; omega
  | zero _ _ is =>
    have empty : (ofRatio false k 1).magnitude = 0 := by simpa [isZero] using is
    simp [biasedExponent, empty] at biased
  | other _ _ _ fits pos' view =>
    have positive : (ofRatio false k 1).sign = .positive := by
      rw [Double.sign, sign]
      rfl
    exact .finite shifted small (by omega)
      (view.trans ((UnpackedFloat.finite.injEq ..).mpr ⟨positive, same, scale⟩))

theorem Stands.isNaN_eq (stands : Stands d n) : d.isNaN = false := by
  rw [← isNaN_unpacked]
  cases stands with
  | zero _ view | finite _ _ _ view | infinite _ view => rw [view]; rfl

theorem Stands.mul_sixteen (stands : Stands d n) : Stands (d.mul (ofInt 16)) (16 * n) := by
  have factor : Stands (ofInt 16) 16 := stands_ofInt (k := 16) (by decide)
  rw [mul_eq_settled stands.isNaN_eq factor.isNaN_eq]
  have sixteen : (ofInt 16).unpacked = .finite .positive (2 ^ 52) (-48) (by decide) := rfl
  rw [sixteen]
  cases stands with
  | zero none view =>
    rw [view]
    exact .zero (by omega) rfl
  | infinite large view =>
    rw [view]
    exact .infinite (by omega) rfl
  | finite shifted small pos view =>
    rename_i m e
    have place := shifted.log2_eq
    obtain rfl : e = (n.log2 : Int) - (52 : Nat) := by omega
    obtain ⟨value, least, bits⟩ := shifted_iff.mp shifted
    have more : Shifted (16 * n) m (((n.log2 + 4 : Nat) : Int) - (52 : Nat)) := by
      refine shifted_iff.mpr ⟨?_, least, bits⟩
      rw [Nat.mul_assoc, value, Nat.pow_add]
      ring
    rw [view, UnpackedFloat.mul, ← more.nearest_eq]
    have log : m.log2 = 52 := (Nat.log2_eq_iff (by omega)).mpr ⟨least, bits⟩
    have exponent : (n.log2 : Int) - (52 : Nat) + -48 = ((n.log2 : Nat) : Int) - (100 : Nat) := by omega
    rw [exponent]
    refine stands_rounded ?_ (by decide) ?_
    · rw [log2_mul_two_pow (by omega)]
      omega
    · rw [show 2 ^ 100 = 2 ^ 52 * 2 ^ 48 by decide, Nat.mul_assoc, ← Nat.mul_assoc n, value]
      ring

/-- Rounding drops bits only, if all bits that fit are there. -/
theorem round_of_leading (s : Sign) {m : Nat} (leading : 52 ≤ m.log2) {e : Int} :
    UnpackedFloat.round .binary64 s m e = UnpackedFloat.roundWithAccuracy .binary64 s m e .exact := by
  have place : (e - Float.Model.Format.binary64.targetExponent
      (Float.Model.totalExponent m e)).toNat = 0 := by
    have bits : ((Float.Model.Format.binary64.mantissaBits : Nat) : Int) = 53 := rfl
    rw [Float.Model.Format.targetExponent, Float.Model.totalExponent, bits]
    omega
  rw [UnpackedFloat.round, UnpackedFloat.decreaseExponent, place]
  simp

/-- A sum of positive numbers before it is rounded. -/
theorem add_positive {m m' : Nat} {e e' : Int} (pos : 0 < m) (pos' : 0 < m') (le : e' ≤ e) :
    UnpackedFloat.add .binary64 (.finite .positive m e pos) (.finite .positive m' e' pos') =
      UnpackedFloat.round .binary64 .positive (m * 2 ^ (e - e').toNat + m') e' := by
  have sum : Sign.positive.apply (m <<< (e - e').toNat : Nat) +
      Sign.positive.apply (m' <<< (e' - e').toNat : Nat) = ((m * 2 ^ (e - e').toNat + m' : Nat) : Int) := by
    simp [Sign.apply, Nat.shiftLeft_eq]
  have greater : compare ((m * 2 ^ (e - e').toNat + m' : Nat) : Int) 0 = .gt := by
    rw [Int.compare_eq_gt]
    omega
  rw [UnpackedFloat.add]
  simp only [UnpackedFloat.decreaseExponent, min_eq_right le]
  rw [sum, UnpackedFloat.normalize, greater, Int.toNat_natCast]

theorem Stands.add_digit (stands : Stands d n) {k : Nat} (digit : k < 16)
    (empty : n = 0 ∨ 16 ≤ n) : Stands (d.add (ofInt k)) (nearest (n + k)) := by
  have added : Stands (ofInt k) k := stands_ofInt (k := k) (by omega)
  rw [add_eq_settled stands.isNaN_eq added.isNaN_eq]
  cases added with
  | infinite large => omega
  | zero none view =>
    subst none
    rw [view, Nat.add_zero]
    cases stands with
    | zero none view =>
      subst none
      rw [view]
      exact .zero rfl rfl
    | infinite large view =>
      rw [view]
      exact .infinite (le_nearest large) rfl
    | finite shifted small pos view =>
      rw [shifted.nearest_eq, view]
      refine .finite shifted small pos ?_
      rw [UnpackedFloat.add, settled_eq rfl, ← view, unpacked_packed_unpacked]
      all_goals simp
  | finite shifted small pos view =>
    rename_i m e
    cases stands with
    | zero none view' =>
      subst none
      rw [Nat.zero_add, shifted.nearest_eq, view']
      refine .finite shifted small pos ?_
      rw [view, UnpackedFloat.add, settled_eq rfl, ← view, unpacked_packed_unpacked, view]
      all_goals simp
    | infinite large view' =>
      rw [view, view']
      exact stands_settled_infinity (le_nearest (by omega))
    | finite shifted' small' pos' view' =>
      rename_i m' e'
      have large : 16 ≤ n := empty.resolve_left shifted'.ne_zero
      have place := shifted.log2_eq
      have place' := shifted'.log2_eq
      have low : k.log2 < 4 := (Nat.log2_lt shifted.ne_zero).mpr digit
      have high : 4 ≤ n.log2 := (Nat.le_log2 shifted'.ne_zero).mpr large
      obtain rfl : e = (k.log2 : Int) - (52 : Nat) := by omega
      obtain rfl : e' = (n.log2 : Int) - (52 : Nat) := by omega
      obtain ⟨value, least, bits⟩ := shifted_iff.mp shifted
      obtain ⟨value', least', bits'⟩ := shifted_iff.mp shifted'
      have leading : 52 ≤ (m' * 2 ^ (n.log2 - k.log2) + m).log2 :=
        (Nat.le_log2 (by omega)).mpr (by omega)
      have apart : ((n.log2 : Int) - (52 : Nat) - ((k.log2 : Int) - (52 : Nat))).toNat =
          n.log2 - k.log2 := by omega
      rw [view, view', add_positive pos' pos (by omega), apart, round_of_leading _ leading]
      refine stands_rounded leading (by decide) ?_
      rw [Nat.add_mul, Nat.add_mul, value, value', Nat.mul_assoc, ← Nat.pow_add,
        Nat.sub_add_cancel (by omega)]

theorem Stands.hexSum (stands : Stands d n) {digits : List Nat} (small : ∀ k ∈ digits, k < 16) :
    Stands (Numeral.hexSum d digits)
      (digits.foldl (fun value digit => nearest (16 * value + digit)) n) := by
  induction digits generalizing d n with
  | nil => exact stands
  | cons k rest ih =>
    have step := stands.mul_sixteen.add_digit (small k (by simp)) (by omega)
    exact ih step fun k member => small k (by simp [member])

theorem two_pow_of_add_four {i j : Nat} (next : i + 4 = j) : 2 ^ j = 16 * 2 ^ i := by
  rw [← next, Nat.pow_add, Nat.mul_comm]

/-- How an exact sum and a sum that is rounded at every step keep together. -/
structure Follows (w v : Nat) : Prop where
  fixed : nearest w = w
  same : v < 2 ^ 53 → w = v
  large : 2 ^ 53 ≤ v → 2 ^ 53 ≤ w
  power (j : Nat) : 54 ≤ j → (2 ^ j ≤ w ↔ 2 ^ j ≤ v + 2 ^ (j - 54))

theorem Follows.zero : Follows 0 0 where
  fixed := rfl
  same _ := rfl
  large large := by omega
  power j far := by
    have less : 2 ^ (j - 54) < 2 ^ j := Nat.pow_lt_pow_right (by decide) (by omega)
    have pos := Nat.two_pow_pos (j - 54)
    omega

theorem Follows.step {w v k : Nat} (follows : Follows w v) (digit : k < 16) :
    Follows (nearest (16 * w + k)) (16 * v + k) where
  fixed := nearest_nearest _
  same small := by
    obtain rfl : w = v := follows.same (by omega)
    exact nearest_of_lt small
  large large := by
    rcases Nat.lt_or_ge v (2 ^ 53) with small | above
    · rw [follows.same small]
      exact le_nearest large
    · have := follows.large above
      exact le_nearest (by omega)
  power j far := by
    rw [le_nearest_iff far]
    rcases Nat.lt_or_ge v (2 ^ 53) with small | above
    · rw [follows.same small]
    have above' := follows.large above
    rcases Nat.lt_or_ge j 58 with near | beyond
    · have power : 2 ^ j ≤ 2 ^ 57 := Nat.pow_le_pow_right (by decide) (by omega)
      have pos := Nat.two_pow_pos (j - 54)
      exact iff_of_true (by omega) (by omega)
    · -- Four places further down a power of two is reached by both or by none.
      have power := follows.power (j - 4) (by omega)
      have reached := le_nearest_iff (n := w) (j := j - 4) (by omega)
      rw [follows.fixed] at reached
      have whole : 2 ^ j = 16 * 2 ^ (j - 4) := two_pow_of_add_four (by omega)
      have half : 2 ^ (j - 54) = 16 * 2 ^ (j - 4 - 54) := two_pow_of_add_four (by omega)
      omega

theorem Follows.foldl {w v : Nat} (follows : Follows w v) {digits : List Nat}
    (small : ∀ k ∈ digits, k < 16) :
    Follows (digits.foldl (fun value digit => nearest (16 * value + digit)) w)
      (digits.foldl (fun value digit => 16 * value + digit) v) := by
  induction digits generalizing w v with
  | nil => exact follows
  | cons k rest ih =>
    exact ih (follows.step (small k (by simp))) fun k member => small k (by simp [member])

theorem isInf_unpacked (d : Double) : d.unpacked.isInf = d.isInfinite := by
  cases d.kind with
  | nan is view =>
    have bounded : d.isInfinite = false := by
      simp only [isNaN, Bool.and_eq_true, bne_iff_ne] at is
      simp [isInfinite, is.2]
    rw [view, bounded]
    rfl
  | infinite _ is _ view | zero _ is _ view | other _ is _ _ _ view =>
    rw [view, is]
    rfl

theorem Stands.isInfinite_iff (stands : Stands d n) : d.isInfinite = true ↔ 2 ^ 1024 ≤ n := by
  rw [← isInf_unpacked]
  cases stands with
  | zero none view =>
    rw [view, none, Nat.le_zero]
    exact iff_of_false Bool.false_ne_true (pow_ne_zero 1024 two_ne_zero)
  | finite shifted small pos view =>
    rw [view]
    exact iff_of_false Bool.false_ne_true (Nat.not_le.mpr (shifted.lt_iff.mpr small))
  | infinite large view =>
    rw [view]
    exact iff_of_true rfl large

/-- The sum of digits overflows exactly if it is nearer to `2 ^ 1024` than to the greatest number. -/
theorem isInfinite_hexSum {digits : List Nat} (small : ∀ k ∈ digits, k < 16) :
    (Numeral.hexSum .zero digits).isInfinite = true ↔
      2 ^ 1024 - 2 ^ 970 ≤ digits.foldl (fun value digit => 16 * value + digit) 0 := by
  have zero : Stands .zero 0 := .zero rfl rfl
  rw [(zero.hexSum small).isInfinite_iff, (Follows.zero.foldl small).power 1024 (by decide),
    Nat.sub_le_iff_le_add]

/-! ## Powers and numerals -/

/-- The magnitude of what is composed of one and a sign. -/
theorem magnitude_ofNat (negative : Bool) {m : Nat} (small : m ≤ 2047 * 2 ^ 52) :
    magnitude ⟨UInt64.ofNat (m + if negative then twoTo 63 else 0)⟩ = m := by
  simp only [magnitude, twoTo, Nat.pow_eq]
  cases negative <;> simp <;> omega

theorem isNaN_of_magnitude {d : Double} (small : d.magnitude ≤ 2047 * 2 ^ 52) : d.isNaN = false := by
  simp only [isNaN, biasedExponent, fraction, twoTo, Nat.pow_eq, Bool.and_eq_false_iff,
    beq_eq_false_iff_ne, bne_eq_false_iff_eq]
  omega

theorem isNaN_ofRatio (negative : Bool) (num den : Nat) : (ofRatio negative num den).isNaN = false := by
  obtain ⟨m, small, same⟩ : ∃ m ≤ 2047 * 2 ^ 52, ofRatio negative num den =
      ⟨UInt64.ofNat (m + if negative then twoTo 63 else 0)⟩ := by
    refine ⟨_, ?_, rfl⟩
    split
    · omega
    · exact Nat.min_le_right _ _
  rw [same]
  exact isNaN_of_magnitude (by rwa [magnitude_ofNat negative small])

theorem isZero_power {k : Nat} (finite : k ≤ 1023) : (ofRatio false (2 ^ k) 1).isZero = false := by
  have shifted := shifted_of_bits (s := 1) k (by decide) (by decide)
  have one : Nat.log2 1 = 0 := by decide
  rw [Nat.one_mul] at shifted
  obtain ⟨-, biased, -⟩ := of_parts false ((k : Int) - (52 - Nat.log2 1 : Nat) + 1074).toNat
    shifted.2.1 shifted.2.2 (by omega)
  rw [← ofRatio_whole shifted false (by omega)] at biased
  rw [isZero, beq_eq_false_iff_ne]
  intro empty
  simp [biasedExponent, empty] at biased

/-- The reciprocals of the finite powers of two are not zero. -/
theorem isZero_reciprocal {k : Nat} (finite : k ≤ 1023) :
    (ofRatio false 1 (2 ^ k)).isZero = false := by
  have unit : 0 < 2 ^ k := Nat.two_pow_pos k
  have exact : ¬ (if -(k : Int) ≥ 0 then 1 < 2 ^ k * 2 ^ (-(k : Int)).toNat
      else 1 * 2 ^ k < 2 ^ k) := by
    split
    · rename_i small
      obtain rfl : k = 0 := by omega
      decide
    · omega
  obtain ⟨t, more, scale⟩ : ∃ t : Nat, k < t ∧ max (-(k : Int) - 52) (-1074) = -t :=
    ⟨min (k + 52) 1074, by omega, by omega⟩
  have whole : 0 < 1 * 2 ^ t / 2 ^ k := by
    rw [Nat.one_mul]
    exact Nat.div_pos (Nat.pow_le_pow_right (by decide) more.le) unit
  have below : ¬ -(t : Int) ≥ 0 := by omega
  obtain ⟨m, pos, same⟩ : ∃ m, 0 < m ∧
      ofRatio false 1 (2 ^ k) = ⟨UInt64.ofNat (min m infinity.bits.toNat + 0)⟩ := by
    simp only [ofRatio, twoTo, Nat.pow_eq, show Nat.log2 1 = 0 by decide, Nat.log2_two_pow,
      one_ne_zero, unit.ne', decide_false, Bool.or_self, Bool.false_eq_true, if_false,
      Nat.cast_zero, zero_sub, exact, scale, below, neg_neg, Int.toNat_natCast]
    refine ⟨_, ?_, rfl⟩
    split <;> omega
  have limit : infinity.bits.toNat = 2047 * 2 ^ 52 := rfl
  have size : magnitude ⟨UInt64.ofNat (min m infinity.bits.toNat + 0)⟩ = min m infinity.bits.toNat :=
    magnitude_ofNat false (limit ▸ Nat.min_le_right ..)
  rw [same, isZero, size, beq_eq_false_iff_ne]
  omega

theorem isNaN_powerOfTwo (n : Int) : (powerOfTwo n).isNaN = false := by
  unfold powerOfTwo
  split
  · split <;> rfl
  · split <;> exact isNaN_ofRatio ..

theorem isZero_powerOfTwo (n : Int) : (powerOfTwo n).isZero = true ↔ n < -1023 := by
  unfold powerOfTwo
  simp only [twoTo, Nat.pow_eq]
  split
  · split
    · exact iff_of_true rfl (by omega)
    · exact iff_of_false Bool.false_ne_true (by omega)
  · split
    · rw [isZero_reciprocal (by omega)]
      exact iff_of_false Bool.false_ne_true (by omega)
    · rw [isZero_power (by omega)]
      exact iff_of_false Bool.false_ne_true (by omega)

theorem isNaN_neg (d : Double) : d.neg.isNaN = d.isNaN := by
  have same : d.neg.magnitude = d.magnitude := by
    change (d.bits ^^^ 0x8000000000000000).toNat % 2 ^ 63 = d.bits.toNat % 2 ^ 63
    rw [UInt64.toNat_xor, Nat.xor_mod_two_pow]
    exact Nat.xor_zero _
  simp only [isNaN, biasedExponent, fraction, same]

end Double

namespace Numeral

open Double

theorem isNaN_scaleByTen (negative : Bool) (digits : List Char) (exponent : Int) :
    (scaleByTen negative digits exponent).isNaN = false := by
  unfold scaleByTen
  dsimp only
  split
  · exact isNaN_ofRatio ..
  · split
    · cases negative <;> rfl
    · split <;> exact isNaN_ofRatio ..

theorem isNaN_of_readDecimal {s : List Char} {d : Double} (read : readDecimal s = some d) :
    d.isNaN = false := by
  unfold readDecimal at read
  dsimp only at read
  split at read
  · split at read
    all_goals
      split at read
      · exact Option.some.inj read ▸ isNaN_scaleByTen ..
      · cases read
  · cases read

namespace Spelling

variable (n : Spelling)

theorem figures_lt {capital : Bool} (hex : n.base = .hexadecimal capital) :
    ∀ k ∈ n.figures, k < 16 := by
  intro k member
  obtain ⟨c, -, rfl⟩ := List.mem_map.mp member
  have parts : 'a'.toNat = 0x61 ∧ 'A'.toNat = 0x41 ∧ 'f'.toNat = 0x66 ∧ 'F'.toNat = 0x46 := by decide
  simp only [hex, Base.digit?, hexValue?, isDigit_iff, le_iff_toNat]
  split
  · simp
    omega
  · split
    · simp
      omega
    · split
      · simp
        omega
      · decide

/-- A hexadecimal float is no number where its digits are too large, and the power of two too small
for anything but zero. -/
theorem isNaN_hexFloat {capital : Bool} (hex : n.base = .hexadecimal capital) :
    n.hexFloat.isNaN = true ↔ 2 ^ 1024 - 2 ^ 970 ≤ n.coefficient ∧ n.binaryScale < -1023 := by
  have small := n.figures_lt hex
  have zero : Stands .zero 0 := .zero rfl rfl
  have number := (zero.hexSum small).isNaN_eq
  have infinite := isInfinite_hexSum small
  rw [← Spelling.ofDigits_eq_foldl] at infinite
  have base : n.base.size = 16 := by rw [hex]; rfl
  rw [coefficient, base, ← infinite, ← isZero_powerOfTwo, hexFloat]
  cases empty : (hexSum .zero n.figures).isZero with
  | true =>
    have nothing : (hexSum .zero n.figures).magnitude = 0 := by simpa [isZero] using empty
    have bounded : (hexSum .zero n.figures).isInfinite = false := by
      simp [isInfinite, biasedExponent, nothing]
    rw [if_pos rfl, bounded]
    exact iff_of_false Bool.false_ne_true fun both => Bool.false_ne_true both.1
  | false =>
    rw [if_neg Bool.false_ne_true, isNaN_mul number (isNaN_powerOfTwo _), empty]
    simp

/-- What a decimal numeral is read as is a number. -/
theorem isNaN_of_decimal (decimal : n.base = .decimal) {before after : List Char}
    (blank : ∀ c ∈ before ++ after, Text.isBlank c = true) {d : Double}
    (read : parse (before ++ n.text ++ after) = some (.float d)) : d.isNaN = false := by
  have trimmed := n.trim_text blank
  have split := n.splitSign_text
  rw [← trimmed, decimal, Base.start, List.nil_append] at split
  rw [parse_of_plain split n.body_ne_nil (n.body_plain decimal)] at read
  split at read
  · cases read
  · split at read
    · cases read
    · rename_i unworded
      rw [readFloat_of_unworded (by rw [split]; simpa using unworded)] at read
      obtain ⟨e, decimal, same⟩ := Option.map_eq_some_iff.mp read
      cases same
      exact isNaN_of_readDecimal decimal

/-- What a hexadecimal numeral with a point or an exponent is read as. -/
theorem parse_hexFloat {capital : Bool} (hex : n.base = .hexadecimal capital) {before after : List Char}
    (blank : ∀ c ∈ before ++ after, Text.isBlank c = true) (float : ¬ n.IsInteger) :
    ∃ d, parse (before ++ n.text ++ after) = some (.float d) ∧ d.isNaN = n.hexFloat.isNaN := by
  have split := n.splitSign_text
  rw [← n.trim_text blank, hex] at split
  have read := (n.readHex_body hex).2 fun ⟨point, exponent⟩ =>
    float ⟨point, exponent, .inl (by simp [hex])⟩
  rw [parse_of_start capital split, read]
  cases n.sign == some true
  · exact ⟨_, rfl, rfl⟩
  · exact ⟨_, rfl, isNaN_neg _⟩

end Spelling

/-- A one with zeros after it, over the power of two that they amount to. -/
def Spelling.unity (zeros : Nat) : Spelling where
  sign := none
  base := .hexadecimal false
  whole := '1' :: List.replicate zeros '0'
  part := none
  exponent := some ⟨'p', some true, Nat.toDigits 10 (4 * zeros), isDigits_toDigits _⟩
  digits c member := by
    simp only [Option.getD_none, List.append_nil, List.mem_cons, List.mem_replicate] at member
    rcases member with rfl | ⟨-, rfl⟩ <;> decide
  nonempty := by simp
  marked := by rintro _ ⟨⟩; rfl

theorem Spelling.coefficient_unity (zeros : Nat) : (unity zeros).coefficient = 2 ^ (4 * zeros) := by
  have figures : (unity zeros).figures = 1 :: List.replicate zeros 0 := by
    simp [unity, figures, Base.digit?, show hexValue? '1' = some 1 by decide,
      show hexValue? '0' = some 0 by decide]
  have base : (unity zeros).base.size = 16 := rfl
  rw [Spelling.coefficient, figures, base, List.reverse_cons, List.reverse_replicate,
    Nat.ofDigits_append, Nat.ofDigits_replicate_zero, Nat.pow_mul]
  simp

theorem Spelling.float_unity (zeros : Nat) :
    (unity zeros).base ≠ .decimal ∧ ¬ (unity zeros).IsInteger := by
  have base : (unity zeros).base = .hexadecimal false := rfl
  exact ⟨by simp [base], fun integer => Option.some_ne_none _ integer.2.1⟩

/-- A string reads as a NaN exactly if, between blanks, it is a hexadecimal numeral with a point or an
exponent whose digits overflow, while the power of two they are multiplied by is taken for zero. -/
theorem parse?_nan (s : String) :
    (∃ d, parse? s = some (.float d) ∧ d.isNaN = true) ↔
      ∃ (n : Spelling) (before after : List Char), s.toList = before ++ n.text ++ after ∧
        (∀ c ∈ before ++ after, Text.isBlank c = true) ∧ n.base ≠ .decimal ∧ ¬ n.IsInteger ∧
        2 ^ 1024 - 2 ^ 970 ≤ n.coefficient ∧ n.binaryScale < -1023 := by
  constructor
  · rintro ⟨d, read, nan⟩
    obtain ⟨n, trimmed⟩ := exists_of_parse read
    obtain ⟨before, after, text, blank⟩ := Text.exists_trim s.toList
    rw [trimmed] at text
    rw [parse?, text] at read
    have float : ¬ n.IsInteger := fun integer => by
      rw [(n.parse_text blank).1 integer] at read
      cases read
    refine ⟨n, before, after, text, blank, ?_⟩
    cases base : n.base with
    | decimal => simp [n.isNaN_of_decimal base blank read] at nan
    | hexadecimal capital =>
      obtain ⟨e, read', same⟩ := n.parse_hexFloat base blank float
      cases read.symm.trans read'
      exact ⟨by simp, float, (n.isNaN_hexFloat base).mp (same ▸ nan)⟩
  · rintro ⟨n, before, after, text, blank, other, float, overflow⟩
    cases base : n.base with
    | decimal => exact absurd base other
    | hexadecimal capital =>
      obtain ⟨d, read, same⟩ := n.parse_hexFloat base blank float
      exact ⟨d, by rw [parse?, text, read], same.trans ((n.isNaN_hexFloat base).mpr overflow)⟩

/-- With 256 zeros the digits overflow, and the number that is one reads as a NaN. -/
theorem parse?_nan_unity :
    (Spelling.unity 256).coefficient = 2 ^ 1024 ∧ (Spelling.unity 256).binaryScale = -1024 ∧
    ∃ d, parse? (String.ofList (Spelling.unity 256).text) = some (.float d) ∧ d.isNaN = true := by
  have coefficient : (Spelling.unity 256).coefficient = 2 ^ 1024 := by
    rw [Spelling.coefficient_unity, show 4 * 256 = 1024 by decide]
  have scale : (Spelling.unity 256).binaryScale = -1024 := by decide
  obtain ⟨other, float⟩ := Spelling.float_unity 256
  refine ⟨coefficient, scale, (parse?_nan _).mpr ⟨Spelling.unity 256, [], [], ?_, by simp, other, float, ?_, ?_⟩⟩
  · rw [String.toList_ofList, List.nil_append, List.append_nil]
  · rw [coefficient]
    exact Nat.sub_le _ _
  · rw [scale]
    decide

end Numeral

end ScriptBridge
