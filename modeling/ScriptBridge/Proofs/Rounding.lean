import Mathlib.Data.Nat.Log
import Mathlib.Tactic.Ring

/-!
Rounding of natural numbers to 53 bits, a tie to the even one: which numbers stay, when a power of two is
reached, and that the arithmetic of binary64 rounds so.
-/

namespace ScriptBridge

namespace Double

theorem log2_mul_two_pow {n : Nat} (pos : 0 < n) (k : Nat) : (n * 2 ^ k).log2 = n.log2 + k := by
  have unit := Nat.two_pow_pos k
  rw [Nat.log2_eq_iff (Nat.mul_pos pos unit).ne', Nat.add_right_comm, Nat.pow_add, Nat.pow_add]
  exact ⟨Nat.mul_le_mul_right _ (Nat.log2_self_le pos.ne'),
    Nat.mul_lt_mul_of_pos_right Nat.lt_log2_self unit⟩

/-- The quotient of a number by `2 ^ k`, rounded to nearest, a tie to the even one. -/
def rounded (n k : Nat) : Nat :=
  let quotient := n / 2 ^ k
  let twice := 2 * (n % 2 ^ k)
  if twice > 2 ^ k ∨ twice = 2 ^ k ∧ quotient % 2 = 1 then quotient + 1 else quotient

/-- The nearest of the numbers with 53 bits and zeros after them, at a tie the even one. -/
def nearest (n : Nat) : Nat := rounded n (n.log2 - 52) * 2 ^ (n.log2 - 52)

theorem rounded_bounds (n k : Nat) : n / 2 ^ k ≤ rounded n k ∧ rounded n k ≤ n / 2 ^ k + 1 := by
  unfold rounded
  dsimp only
  split <;> omega

theorem rounded_of_dvd {n k : Nat} (whole : 2 ^ k ∣ n) : rounded n k = n / 2 ^ k := by
  have unit : 0 < 2 ^ k := Nat.two_pow_pos k
  unfold rounded
  dsimp only
  rw [Nat.mod_eq_zero_of_dvd whole, if_neg (by omega)]

theorem rounded_scale (n k t : Nat) : rounded (n * 2 ^ t) (k + t) = rounded n k := by
  have unit := Nat.two_pow_pos t
  have quotient : n * 2 ^ t / 2 ^ (k + t) = n / 2 ^ k := by
    rw [Nat.pow_add, Nat.mul_div_mul_right _ _ unit]
  have rest : 2 * (n * 2 ^ t % 2 ^ (k + t)) = 2 * (n % 2 ^ k) * 2 ^ t := by
    rw [Nat.pow_add, Nat.mul_mod_mul_right, Nat.mul_assoc]
  simp only [rounded, quotient, rest]
  simp only [Nat.pow_add, gt_iff_lt, Nat.mul_lt_mul_right unit, Nat.mul_left_inj unit.ne']

theorem quotient_bounds {n : Nat} (large : 52 ≤ n.log2) :
    2 ^ 52 ≤ n / 2 ^ (n.log2 - 52) ∧ n / 2 ^ (n.log2 - 52) < 2 ^ 53 := by
  have nonzero : n ≠ 0 := by
    rintro rfl
    simp at large
  constructor
  · rw [Nat.le_div_iff_mul_le (Nat.two_pow_pos _), ← Nat.pow_add,
      show 52 + (n.log2 - 52) = n.log2 by omega]
    exact Nat.log2_self_le nonzero
  · rw [Nat.div_lt_iff_lt_mul (Nat.two_pow_pos _), ← Nat.pow_add,
      show 53 + (n.log2 - 52) = n.log2 + 1 by omega]
    exact Nat.lt_log2_self

theorem nearest_of_bits {m : Nat} (bits : m < 2 ^ 53) (k : Nat) : nearest (m * 2 ^ k) = m * 2 ^ k := by
  rcases Nat.eq_zero_or_pos m with rfl | pos
  · simp [nearest, rounded]
  have log : (m * 2 ^ k).log2 - 52 ≤ k := by
    have := (Nat.log2_lt pos.ne').mpr bits
    rw [log2_mul_two_pow pos]
    omega
  have whole : 2 ^ ((m * 2 ^ k).log2 - 52) ∣ m * 2 ^ k :=
    Dvd.dvd.mul_left (Nat.pow_dvd_pow 2 log) m
  rw [nearest, rounded_of_dvd whole, Nat.div_mul_cancel whole]

theorem nearest_of_lt {n : Nat} (small : n < 2 ^ 53) : nearest n = n := by
  simpa using nearest_of_bits small 0

theorem nearest_of_log2 {n : Nat} (small : n.log2 ≤ 52) : nearest n = n := by
  refine nearest_of_lt (Nat.lt_log2_self.trans_le ?_)
  exact Nat.pow_le_pow_right (by decide) (by omega)

theorem nearest_nearest (n : Nat) : nearest (nearest n) = nearest n := by
  by_cases small : n.log2 ≤ 52
  · rw [nearest_of_log2 small, nearest_of_log2 small]
  · have bounds := quotient_bounds (n := n) (by omega)
    have close := rounded_bounds n (n.log2 - 52)
    have value : nearest n = rounded n (n.log2 - 52) * 2 ^ (n.log2 - 52) := rfl
    rw [value]
    rcases Nat.lt_or_ge (rounded n (n.log2 - 52)) (2 ^ 53) with bits | carry
    · exact nearest_of_bits bits _
    · have power : rounded n (n.log2 - 52) = 2 ^ 53 := by omega
      rw [power, ← Nat.pow_add]
      simpa using nearest_of_bits (m := 1) (by decide) (53 + (n.log2 - 52))

theorem nearest_scale (n t : Nat) : nearest (n * 2 ^ t) = nearest n * 2 ^ t := by
  by_cases small : n.log2 ≤ 52
  · have bits : n < 2 ^ 53 :=
      Nat.lt_log2_self.trans_le (Nat.pow_le_pow_right (by decide) (by omega))
    rw [nearest_of_bits bits, nearest_of_lt bits]
  · have pos : 0 < n := Nat.pos_of_ne_zero fun zero => by simp [zero] at small
    have place : (n * 2 ^ t).log2 - 52 = n.log2 - 52 + t := by
      rw [log2_mul_two_pow pos]
      omega
    rw [nearest, place, rounded_scale, nearest, Nat.pow_add, Nat.mul_assoc]

/-- A power of two is not crossed in rounding. -/
theorem le_nearest {n j : Nat} (above : 2 ^ j ≤ n) : 2 ^ j ≤ nearest n := by
  by_cases small : n.log2 ≤ 52
  · rwa [nearest_of_log2 small]
  · have least := (quotient_bounds (n := n) (by omega)).1
    have nonzero : n ≠ 0 := fun zero => by simp [zero] at small
    have place : j ≤ n.log2 := (Nat.le_log2 nonzero).2 above
    calc 2 ^ j ≤ 2 ^ n.log2 := Nat.pow_le_pow_right (by decide) place
      _ = 2 ^ 52 * 2 ^ (n.log2 - 52) := by rw [← Nat.pow_add]; congr 1; omega
      _ ≤ nearest n := Nat.mul_le_mul_right _ (least.trans (rounded_bounds ..).1)

theorem nearest_le {n j : Nat} (below : n < 2 ^ j) : nearest n ≤ 2 ^ j := by
  by_cases small : n.log2 ≤ 52
  · rw [nearest_of_log2 small]
    exact below.le
  · have most := (quotient_bounds (n := n) (by omega)).2
    have nonzero : n ≠ 0 := fun zero => by simp [zero] at small
    have place : n.log2 < j := (Nat.log2_lt nonzero).2 below
    calc nearest n ≤ 2 ^ 53 * 2 ^ (n.log2 - 52) :=
          Nat.mul_le_mul_right _ ((rounded_bounds ..).2.trans most)
      _ = 2 ^ (n.log2 + 1) := by rw [← Nat.pow_add]; congr 1; omega
      _ ≤ 2 ^ j := Nat.pow_le_pow_right (by decide) place

/-- A number is rounded up to a power of two from half a unit below it. -/
theorem le_nearest_iff {n j : Nat} (far : 54 ≤ j) :
    2 ^ j ≤ nearest n ↔ 2 ^ j ≤ n + 2 ^ (j - 54) := by
  have half := Nat.two_pow_pos (j - 54)
  have unit : 2 ^ (j - 53) = 2 * 2 ^ (j - 54) := by
    rw [← Nat.pow_succ']
    congr 1
    omega
  have power : 2 ^ j = 2 ^ 53 * 2 ^ (j - 53) := by
    rw [← Nat.pow_add]
    congr 1
    omega
  rcases Nat.lt_or_ge n (2 ^ j) with below | above
  · rcases Nat.lt_or_ge n (2 ^ (j - 1)) with lower | near
    · have smaller : 2 ^ j = 2 * 2 ^ (j - 1) := by
        rw [← Nat.pow_succ']
        congr 1
        omega
      have le := nearest_le lower
      constructor <;> omega
    · have log : n.log2 = j - 1 := by
        refine (Nat.log2_eq_iff (by have := Nat.two_pow_pos (j - 1); omega)).mpr ⟨near, ?_⟩
        rwa [Nat.sub_add_cancel (by omega)]
      have most := (quotient_bounds (n := n) (by omega)).2
      have parts := Nat.div_add_mod n (2 ^ (j - 53))
      have rest := Nat.mod_lt n (Nat.two_pow_pos (j - 53))
      have value : nearest n = rounded n (j - 53) * 2 ^ (j - 53) := by
        rw [nearest, log, show j - 1 - 52 = j - 53 by omega]
      rw [log, show j - 1 - 52 = j - 53 by omega] at most
      rw [value, power, Nat.mul_le_mul_right_iff (Nat.two_pow_pos _)]
      unfold rounded
      dsimp only
      -- Only from a quotient of ones does rounding reach the power.
      rcases Nat.lt_or_ge (n / 2 ^ (j - 53)) (2 ^ 53 - 1) with less | last
      · have fewer : 2 ^ (j - 53) * (n / 2 ^ (j - 53) + 1) ≤ 2 ^ (j - 53) * (2 ^ 53 - 1) :=
          Nat.mul_le_mul_left _ less
        refine iff_of_false ?_ ?_
        · split <;> omega
        · rw [Nat.mul_add, Nat.mul_sub] at fewer
          omega
      · obtain full : n / 2 ^ (j - 53) = 2 ^ 53 - 1 := by omega
        rw [full] at parts ⊢
        rw [Nat.mul_sub] at parts
        split <;> constructor <;> omega
  · exact iff_of_true (le_nearest above) (by omega)

/-! ## Rounding in binary64 -/

open Float.Model (Format UnpackedFloat totalExponent)
open Float.Model.UnpackedFloat (Sign ExtendedMantissa)

/-- Shifting keeps the bit behind the last one, and whether anything comes after that bit. -/
theorem shiftRight_exact (n k : Nat) : (⟨n, false, false⟩ : ExtendedMantissa) >>> k =
    ⟨n / 2 ^ k, decide (2 ^ k ≤ 2 * (n % 2 ^ k)), decide (2 * (n % 2 ^ k) % 2 ^ k ≠ 0)⟩ := by
  change Nat.repeat _ _ _ = _
  induction k with
  | zero => simp [Nat.repeat, Nat.mod_one]
  | succ k ih =>
    have small := Nat.mod_lt n (Nat.two_pow_pos k)
    have rest : 2 * (n % 2 ^ (k + 1)) = 2 * (n % 2 ^ k) + 2 ^ (k + 1) * (n / 2 ^ k % 2) := by
      rw [Nat.mod_pow_succ, Nat.pow_succ]
      ring
    have double : 2 ^ (k + 1) = 2 * 2 ^ k := Nat.pow_succ'
    have sticky : 2 * (n % 2 ^ (k + 1)) % 2 ^ (k + 1) = 2 * (n % 2 ^ k) := by
      rw [rest, Nat.add_mul_mod_self_left, Nat.mod_eq_of_lt (by omega)]
    rw [Nat.repeat, ih, ExtendedMantissa.shiftRightOne, ExtendedMantissa.mk.injEq]
    refine ⟨?_, ?_, ?_⟩
    · rw [Nat.div_div_eq_div_mul, ← Nat.pow_succ]
    · rw [rest]
      rcases Nat.mod_two_eq_zero_or_one (n / 2 ^ k) with even | odd
      · simp [even]
        omega
      · simp [odd]
    · rw [sticky]
      rcases Nat.lt_or_ge (2 * (n % 2 ^ k)) (2 ^ k) with less | more
      · simp [Nat.mod_eq_of_lt less, Nat.not_le.mpr less]
      · have something : n % 2 ^ k ≠ 0 := fun none => by
          have := Nat.two_pow_pos k
          omega
        simp [more, something]

theorem roundedMantissa_shiftRight (n k : Nat) :
    ((⟨n, false, false⟩ : ExtendedMantissa) >>> k).roundedMantissa = rounded n k := by
  have small := Nat.mod_lt n (Nat.two_pow_pos k)
  rw [shiftRight_exact, rounded]
  rcases Nat.lt_or_ge (2 * (n % 2 ^ k)) (2 ^ k) with less | more
  · rw [if_neg (by omega), decide_eq_false (by omega), Nat.mod_eq_of_lt less]
    cases decide (2 * (n % 2 ^ k) ≠ 0) <;> rfl
  · have remains : 2 * (n % 2 ^ k) % 2 ^ k = 2 * (n % 2 ^ k) - 2 ^ k := by
      rw [Nat.mod_eq_sub_mod more, Nat.mod_eq_of_lt (by omega)]
    rw [decide_eq_true more, remains]
    rcases Nat.eq_or_lt_of_le more with tie | above
    · rw [decide_eq_false (by omega)]
      change n / 2 ^ k + n / 2 ^ k % 2 = _
      split <;> omega
    · rw [decide_eq_true (by omega), if_pos (.inl above)]
      rfl

theorem roundWithAccuracy_exact (s : Sign) {n : Nat} {e : Int} (large : 52 ≤ n.log2)
    (far : -1074 ≤ e) : ∃ (m t : Nat) (pos : 0 < m), 2 ^ 52 ≤ m ∧ m < 2 ^ 53 ∧
      m * 2 ^ t = nearest n ∧
      UnpackedFloat.roundWithAccuracy .binary64 s n e .exact = .finite s m (e + t) pos := by
  have target (m : Nat) (e : Int) (least : 52 ≤ m.log2) (far : -1074 ≤ e) :
      UnpackedFloat.shiftToTargetExponent .binary64 m e .exact =
        ((⟨m, false, false⟩ : ExtendedMantissa) >>> (m.log2 - 52), e + (m.log2 - 52 : Nat)) := by
    have place : (Format.binary64.targetExponent (totalExponent m e) - e).toNat = m.log2 - 52 := by
      have bits : ((Format.binary64.mantissaBits : Nat) : Int) = 53 := rfl
      have lowest : Format.binary64.minExponent = -1074 := rfl
      rw [Format.targetExponent, totalExponent, bits, lowest]
      omega
    rw [UnpackedFloat.shiftToTargetExponent, UnpackedFloat.shiftToExponent, place]
    rfl
  have bounds := quotient_bounds large
  have close := rounded_bounds n (n.log2 - 52)
  -- A carry into the 54th bit is shifted out again.
  unfold UnpackedFloat.roundWithAccuracy
  rw [target n e large far]
  dsimp only
  rw [roundedMantissa_shiftRight]
  rcases Nat.lt_or_ge (rounded n (n.log2 - 52)) (2 ^ 53) with bits | carry
  · have log : (rounded n (n.log2 - 52)).log2 = 52 :=
      (Nat.log2_eq_iff (by omega)).mpr ⟨by omega, bits⟩
    refine ⟨_, n.log2 - 52, by omega, bounds.1.trans close.1, bits, rfl, ?_⟩
    rw [target _ _ log.ge (by omega), log]
    refine (dif_neg ?_).trans ((UnpackedFloat.finite.injEq ..).mpr ⟨rfl, rfl, Int.add_zero _⟩)
    change ¬ rounded n (n.log2 - 52) = 0
    omega
  · have power : rounded n (n.log2 - 52) = 2 ^ 53 := by omega
    have value : 2 ^ 52 * 2 ^ (n.log2 - 52 + 1) = nearest n := by
      rw [nearest, power, Nat.pow_succ]
      ring
    refine ⟨2 ^ 52, n.log2 - 52 + 1, by decide, le_rfl, by decide, value, ?_⟩
    have log : (2 ^ 53).log2 = 53 := Nat.log2_two_pow
    rw [power, target _ _ (by omega) (by omega), log]
    refine (dif_neg ?_).trans ((UnpackedFloat.finite.injEq ..).mpr ⟨rfl, ?_, Int.add_assoc ..⟩)
    · change ¬ 2 ^ 53 / 2 = 0
      decide
    · change 2 ^ 53 / 2 = 2 ^ 52
      decide

end Double

end ScriptBridge
