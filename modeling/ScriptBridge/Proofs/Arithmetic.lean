import Mathlib
import ScriptBridge.Proofs.FloatTexts

/-!
The arithmetic of binary64 on unpacked numbers: the kinds of numbers, what packing keeps of an unpacked
number, and when a product is no number.
-/

namespace ScriptBridge

namespace Double

open Float.Model (Format UnpackedFloat totalExponent)
open Float.Model.UnpackedFloat (Sign ExtendedMantissa)

/-- A number as the arithmetic of binary64 sees it. -/
def unpacked (d : Double) : UnpackedFloat := .unpack .binary64 d.bits.toBitVec

/-- The number that an unpacked one is in 64 bits. -/
def packed (u : UnpackedFloat) : Double := ⟨.ofBitVec (u.pack .binary64)⟩

def sign (d : Double) : Sign := if d.isNegative then .negative else .positive

/-! ## Unpacking -/

/-- The exponent of a number whose significand is taken for an integer is biased by 1075. -/
theorem exponentBias_eq : ((Format.binary64.exponentBias : Nat) : Int) + (52 : Nat) = 1075 := by
  decide

theorem toNat_unpackExponent (d : Double) :
    (@UnpackedFloat.unpackExponent .binary64 d.bits.toBitVec).toNat = d.biasedExponent := by
  change (d.bits.toNat >>> 52) % 2 ^ 11 = d.bits.toNat % twoTo 63 / twoTo 52
  rw [Nat.shiftRight_eq_div_pow]
  simp only [twoTo, Nat.pow_eq]
  omega

theorem toNat_unpackMantissa (d : Double) :
    (@UnpackedFloat.unpackMantissa .binary64 d.bits.toBitVec).toNat = d.fraction := by
  change (d.bits.toNat >>> 0) % 2 ^ 52 = d.bits.toNat % twoTo 63 % twoTo 52
  rw [Nat.shiftRight_zero]
  simp only [twoTo, Nat.pow_eq]
  omega

theorem ofBitVec_unpackSign (d : Double) :
    Sign.ofBitVec (@UnpackedFloat.unpackSign .binary64 d.bits.toBitVec) = d.sign := by
  have bit : (@UnpackedFloat.unpackSign .binary64 d.bits.toBitVec).toNat =
      d.bits.toNat / 2 ^ 63 := by
    change (d.bits.toNat >>> 63) % 2 ^ 1 = _
    rw [Nat.shiftRight_eq_div_pow]
    have := d.bits.toNat_lt
    omega
  have small : d.bits.toNat / 2 ^ 63 < 2 := by
    have := d.bits.toNat_lt
    omega
  have positive : @UnpackedFloat.unpackSign .binary64 d.bits.toBitVec = 0#1 ↔
      d.bits.toNat / 2 ^ 63 = 0 := by
    rw [← BitVec.toNat_inj, bit]
    rfl
  have negative : d.isNegative = decide (d.bits.toNat / 2 ^ 63 = 1) := rfl
  rw [Sign.ofBitVec, sign, negative]
  by_cases zero : d.bits.toNat / 2 ^ 63 = 0
  · rw [if_pos (positive.mpr zero), if_neg (by simp; omega)]
  · rw [if_neg (mt positive.mp zero), if_pos (decide_eq_true (by omega))]

theorem toNat_append_one (m : BitVec 52) : (1#1 ++ m).toNat = m.toNat + twoTo 52 := by
  have apart := Nat.shiftLeft_add_eq_or_of_lt m.isLt 1
  rw [BitVec.toNat_append, Nat.add_comm]
  exact apart.symm

/-- A significand and the place of its last bit as binary64 has them: with the leading bit, or at the
last place that there is. -/
def Fits (m : Nat) (e : Int) : Prop :=
  m < 2 ^ 52 ∧ e = -1074 ∨ 2 ^ 52 ≤ m ∧ m < 2 ^ 53 ∧ -1074 ≤ e ∧ e ≤ 971

/-- The four kinds of numbers. -/
inductive Kind (d : Double) : Prop where
  | nan (is : d.isNaN = true) (view : d.unpacked = .notANumber)
  | infinite (number : d.isNaN = false) (is : d.isInfinite = true) (nonzero : d.isZero = false)
      (view : d.unpacked = .infinity d.sign)
  | zero (number : d.isNaN = false) (bounded : d.isInfinite = false) (is : d.isZero = true)
      (view : d.unpacked = .zero d.sign)
  | other (number : d.isNaN = false) (bounded : d.isInfinite = false) (nonzero : d.isZero = false)
      (fits : Fits d.significand d.scale) (pos : 0 < d.significand)
      (view : d.unpacked = .finite d.sign d.significand d.scale pos)

theorem kind (d : Double) : d.Kind := by
  have exponent := d.toNat_unpackExponent
  have mantissa := d.toNat_unpackMantissa
  have below : d.fraction < 2 ^ 52 := Nat.mod_lt _ (by decide)
  have parts : d.magnitude = d.biasedExponent * 2 ^ 52 + d.fraction := by
    simp only [biasedExponent, fraction, twoTo, Nat.pow_eq]
    omega
  have isZero : d.isZero = decide (d.biasedExponent = 0 ∧ d.fraction = 0) := by
    rw [isZero, parts, Bool.eq_iff_iff, beq_iff_eq, decide_eq_true_iff]
    omega
  have view : d.unpacked = UnpackedFloat.unpack .binary64 d.bits.toBitVec := rfl
  rw [UnpackedFloat.unpack] at view
  dsimp only at view
  rw [d.ofBitVec_unpackSign, exponentBias_eq] at view
  split at view
  · rename_i full
    have biased : d.biasedExponent = 2047 := by rw [← exponent, full]; rfl
    split at view
    · rename_i empty
      have nothing : d.fraction = 0 := by rw [← mantissa, empty]; rfl
      exact .infinite (by simp [isNaN, nothing]) (by simp [isInfinite, biased, nothing])
        (by simp [isZero, biased]) view
    · rename_i payload
      have something : d.fraction ≠ 0 := fun nothing =>
        payload (BitVec.toNat_inj.mp (mantissa.trans nothing))
      exact .nan (by simp [isNaN, biased, something]) view
  · rename_i part
    have biased : d.biasedExponent < 2047 := by
      have other : d.biasedExponent ≠ 2047 := fun full =>
        part (BitVec.toNat_inj.mp (exponent.trans full))
      have bound : d.biasedExponent < 2 ^ 11 := exponent ▸ BitVec.isLt _
      omega
    have number : d.isNaN = false := by simp [isNaN, biased.ne]
    have bounded : d.isInfinite = false := by simp [isInfinite, biased.ne]
    split at view
    · rename_i none
      have subnormal : d.biasedExponent = 0 := by rw [← exponent, none]; rfl
      split at view
      · rename_i empty
        have nothing : d.fraction = 0 := by rw [← mantissa, empty]; rfl
        exact .zero number bounded (by simp [isZero, subnormal, nothing]) view
      · rename_i payload
        have something : d.fraction ≠ 0 := fun nothing =>
          payload (BitVec.toNat_inj.mp (mantissa.trans nothing))
        have significand : d.significand = d.fraction := if_pos subnormal
        have scale : d.scale = -1074 := if_pos subnormal
        refine .other number bounded (by simp [isZero, something]) (.inl ?_) ?_
          (view.trans ((UnpackedFloat.finite.injEq ..).mpr ⟨rfl, ?_, ?_⟩))
        · omega
        · omega
        · rw [significand, mantissa]
        · rw [scale, exponent, subnormal]
          rfl
    · rename_i leading
      have normal : d.biasedExponent ≠ 0 := fun none =>
        leading (BitVec.toNat_inj.mp (exponent.trans none))
      have significand : d.significand = d.fraction + 2 ^ 52 := if_neg normal
      have scale : d.scale = d.biasedExponent - 1075 := if_neg normal
      refine .other number bounded (by simp [isZero, normal]) (.inr ?_) ?_
        (view.trans ((UnpackedFloat.finite.injEq ..).mpr ⟨rfl, ?_, ?_⟩))
      · omega
      · omega
      · rw [significand, ← mantissa]
        exact toNat_append_one _
      · rw [scale, exponent]

/-! ## Packing -/

theorem unpacked_packed {s : Sign} {m : Nat} {e : Int} (pos : 0 < m) (fits : Fits m e) :
    (packed (.finite s m e pos)).unpacked = .finite s m e pos := by
  change UnpackedFloat.unpack .binary64 (UnpackedFloat.pack .binary64 (.finite s m e pos)) = _
  have width : Format.binary64.mantissaBits = 53 := rfl
  rw [UnpackedFloat.pack]
  dsimp only
  rw [Int.add_assoc, exponentBias_eq, width]
  rcases fits with ⟨small, rfl⟩ | ⟨least, below, low, high⟩
  · have log : m.log2 + 1 ≠ 53 := by
      have := (Nat.log2_lt pos.ne').mpr small
      omega
    have rest : (BitVec.ofNat 52 m).toNat = m := Nat.mod_eq_of_lt small
    have something : BitVec.ofNat 52 m ≠ 0#52 := fun nothing => by
      rw [nothing] at rest
      exact pos.ne rest
    rw [if_neg (by decide), if_neg log, UnpackedFloat.unpack]
    simp only [UnpackedFloat.unpackMantissa_packComponents,
      UnpackedFloat.unpackExponent_packComponents, UnpackedFloat.unpackSign_packComponents,
      Sign.ofBitVec_toBitVec]
    rw [if_neg (by decide), if_pos trivial, dif_neg something]
    exact (UnpackedFloat.finite.injEq ..).mpr ⟨rfl, rest, by decide⟩
  · have log : m.log2 + 1 = 53 := by
      have := (Nat.log2_eq_iff pos.ne').mpr ⟨least, below⟩
      omega
    have rest : (BitVec.ofNat 52 m).toNat = m - 2 ^ 52 := by
      rw [BitVec.toNat_ofNat]
      omega
    have biased : (BitVec.ofNat 11 (e + 1075).toNat).toNat = (e + 1075).toNat :=
      Nat.mod_eq_of_lt (by omega)
    have other (k : BitVec 11) (differs : (e + 1075).toNat ≠ k.toNat) :
        BitVec.ofNat 11 (e + 1075).toNat ≠ k := fun same => differs (by rw [← biased, same])
    rw [if_neg (by omega), if_pos log, UnpackedFloat.unpack]
    simp only [UnpackedFloat.unpackMantissa_packComponents,
      UnpackedFloat.unpackExponent_packComponents, UnpackedFloat.unpackSign_packComponents,
      Sign.ofBitVec_toBitVec]
    rw [if_neg (other _ (by simp; omega)), if_neg (other _ (by simp; omega))]
    refine (UnpackedFloat.finite.injEq ..).mpr ⟨rfl, ?_, ?_⟩
    · rw [toNat_append_one, rest, twoTo, Nat.pow_eq]
      omega
    · rw [biased, exponentBias_eq]
      omega

theorem unpacked_infinity (s : Sign) : (packed (.infinity s)).unpacked = .infinity s := by
  cases s <;> rfl

theorem unpacked_zero (s : Sign) : (packed (.zero s)).unpacked = .zero s := by
  cases s <;> rfl

/-- What is too large is infinite. -/
theorem packed_overflow {s : Sign} {m : Nat} {e : Int} (pos : 0 < m) (large : 971 < e) :
    packed (.finite s m e pos) = packed (.infinity s) := by
  rw [packed, UnpackedFloat.pack]
  dsimp only
  rw [Int.add_assoc, exponentBias_eq, if_pos (by omega)]
  rfl

/-- Packing keeps what was unpacked. -/
theorem unpacked_packed_unpacked (d : Double) : (packed d.unpacked).unpacked = d.unpacked := by
  cases d.kind with
  | nan _ view => rw [view]; rfl
  | infinite _ _ _ view => rw [view, unpacked_infinity]
  | zero _ _ _ view => rw [view, unpacked_zero]
  | other _ _ _ fits pos view => rw [view, unpacked_packed pos fits]

theorem isNaN_unpacked (d : Double) : d.unpacked.isNaN = d.isNaN := by
  cases d.kind with
  | nan is view => rw [view, is]; rfl
  | infinite number _ _ view | zero number _ _ view | other number _ _ _ _ view =>
    rw [view, number]
    rfl

theorem isNaN_packed_finite {s : Sign} {m : Nat} {e : Int} (pos : 0 < m) :
    (packed (.finite s m e pos)).isNaN = false := by
  rcases Int.lt_or_le 971 e with large | small
  · rw [packed_overflow pos large]
    cases s <;> rfl
  · have exponent (e : BitVec 11) (m : BitVec 52) (part : e.toNat < 2047) :
        isNaN ⟨.ofBitVec (UnpackedFloat.packComponents .binary64 s e m)⟩ = false := by
      have biased := toNat_unpackExponent ⟨.ofBitVec (UnpackedFloat.packComponents .binary64 s e m)⟩
      rw [UInt64.toBitVec_ofBitVec, UnpackedFloat.unpackExponent_packComponents] at biased
      simp [isNaN, ← biased, part.ne]
    rw [packed, UnpackedFloat.pack]
    dsimp only
    rw [Int.add_assoc, exponentBias_eq, if_neg (by omega)]
    split
    · exact exponent _ _ (by rw [BitVec.toNat_ofNat]; omega)
    · exact exponent _ _ (by decide)

/-! ## Operations -/

/-- The number that an operation yields whose result is given unpacked. -/
def settled (u : UnpackedFloat) : Double := if (packed u).isNaN then invalid else packed u

theorem isNaN_settled (u : UnpackedFloat) : (settled u).isNaN = u.isNaN := by
  cases u with
  | notANumber => rfl
  | infinity s => cases s <;> rfl
  | zero s => cases s <;> rfl
  | finite s m e pos =>
    rw [settled, isNaN_packed_finite pos]
    exact isNaN_packed_finite pos

theorem settled_eq {u : UnpackedFloat} (number : u.isNaN = false) : settled u = packed u := by
  have same := isNaN_settled u
  rw [number, settled] at same
  split at same
  · cases same
  · rename_i other
    rw [settled, if_neg other]

variable {a b : Double}

theorem unpack_toFloat (d : Double) : d.toFloat.toModel.unpack = d.unpacked :=
  unpacked_packed_unpacked d

theorem ofFloat_pack (u : UnpackedFloat) : ofFloat (.ofModel (.pack u)) = settled u := by
  have same : (Float.ofModel (.pack u)).isNaN = (packed u).isNaN := isNaN_unpacked _
  rw [ofFloat, same]
  rfl

theorem mul_eq_settled (first : a.isNaN = false) (second : b.isNaN = false) :
    a.mul b = settled (.mul .binary64 a.unpacked b.unpacked) := by
  rw [← ofFloat_pack, ← unpack_toFloat a, ← unpack_toFloat b]
  change (if a.isNaN then _ else if b.isNaN then _ else _) = _
  rw [first, second]
  rfl

theorem add_eq_settled (first : a.isNaN = false) (second : b.isNaN = false) :
    a.add b = settled (.add .binary64 a.unpacked b.unpacked) := by
  rw [← ofFloat_pack, ← unpack_toFloat a, ← unpack_toFloat b]
  change (if a.isNaN then _ else if b.isNaN then _ else _) = _
  rw [first, second]
  rfl

theorem isNaN_roundWithAccuracy (s : Sign) (m : Nat) (e : Int) (accuracy : UnpackedFloat.Accuracy) :
    (UnpackedFloat.roundWithAccuracy .binary64 s m e accuracy).isNaN = false := by
  unfold UnpackedFloat.roundWithAccuracy
  dsimp only
  split <;> rfl

/-- A product of numbers is no number only where zero meets infinity. -/
theorem isNaN_mul (first : a.isNaN = false) (second : b.isNaN = false) :
    (a.mul b).isNaN = true ↔
      a.isInfinite = true ∧ b.isZero = true ∨ a.isZero = true ∧ b.isInfinite = true := by
  rw [mul_eq_settled first second, isNaN_settled]
  cases a.kind with
  | nan is => simp [is] at first
  | infinite _ is nonzero view | zero _ is nonzero view | other _ is nonzero _ _ view =>
    cases b.kind with
    | nan is' => simp [is'] at second
    | infinite _ is' nonzero' view' | zero _ is' nonzero' view' | other _ is' nonzero' _ _ view' =>
      rw [view, view', is, is', nonzero, nonzero', UnpackedFloat.mul]
      simp only [Bool.false_eq_true, and_self, and_false, false_and, or_false, false_or, iff_true,
        iff_false, Bool.not_eq_true]
      first | rfl | exact isNaN_roundWithAccuracy ..

end Double

end ScriptBridge
