import ScriptBridge.Number.Power

/-!
Binary64 numbers as their 64 bits. Keeping the bits makes equality, order and conversion to
integers exact arithmetic on naturals, and keeps the sign of a NaN, which the texts of numbers show.
-/

namespace ScriptBridge

/-- A binary64 number, given by its bits, most significant first. -/
structure Double where
  bits : UInt64
deriving DecidableEq, Hashable, Inhabited, Repr

namespace Double

def isNegative (d : Double) : Bool := d.bits.toNat / twoTo 63 == 1

/-- The bits without the sign. -/
def magnitude (d : Double) : Nat := d.bits.toNat % twoTo 63

def biasedExponent (d : Double) : Nat := d.magnitude / twoTo 52

def fraction (d : Double) : Nat := d.magnitude % twoTo 52

def isFinite (d : Double) : Bool := d.biasedExponent < 2047

def isNaN (d : Double) : Bool := d.biasedExponent == 2047 && d.fraction != 0

def isInfinite (d : Double) : Bool := d.biasedExponent == 2047 && d.fraction == 0

def isZero (d : Double) : Bool := d.magnitude == 0

/-- A finite number is `± significand * 2 ^ scale`. -/
def significand (d : Double) : Nat :=
  if d.biasedExponent = 0 then d.fraction else d.fraction + twoTo 52

def scale (d : Double) : Int :=
  if d.biasedExponent = 0 then -1074 else (d.biasedExponent : Int) - 1075

/-- Numbers that are not NaN are ordered as their ranks; both zeros have rank zero. -/
def rank (d : Double) : Int :=
  if d.isNegative then -(d.magnitude : Int) else d.magnitude

/-- Equality of numbers: a NaN equals nothing, the two zeros are equal. -/
def numEq (a b : Double) : Bool := !a.isNaN && !b.isNaN && a.rank == b.rank

def numLt (a b : Double) : Bool := !a.isNaN && !b.isNaN && decide (a.rank < b.rank)

def numLe (a b : Double) : Bool := !a.isNaN && !b.isNaN && decide (a.rank ≤ b.rank)

def zero : Double := ⟨0⟩

def infinity : Double := ⟨0x7ff0000000000000⟩

/-- The NaN that an invalid operation yields. -/
def invalid : Double := ⟨0xfff8000000000000⟩

/-- The NaN without a sign. -/
def positiveNaN : Double := ⟨0x7ff8000000000000⟩

def neg (d : Double) : Double := ⟨d.bits ^^^ 0x8000000000000000⟩

/-- The number nearest to `num / den`, ties to the even significand; overflow goes to infinity. -/
def ofRatio (negative : Bool) (num den : Nat) : Double :=
  let magnitude : Nat :=
    if num = 0 || den = 0 then 0
    else
      let estimate : Int := (num.log2 : Int) - den.log2
      let exponent : Int :=
        if (if estimate ≥ 0 then num < den * twoTo estimate.toNat else num * twoTo (-estimate).toNat < den)
        then estimate - 1 else estimate
      let scale : Int := max (exponent - 52) (-1074)
      let top := if scale ≥ 0 then num else num * twoTo (-scale).toNat
      let bottom := if scale ≥ 0 then den * twoTo scale.toNat else den
      let quotient := top / bottom
      let twice := 2 * (top % bottom)
      let rounded :=
        if twice > bottom || (twice == bottom && quotient % 2 == 1) then quotient + 1 else quotient
      min ((scale + 1074).toNat * twoTo 52 + rounded) infinity.bits.toNat
  ⟨UInt64.ofNat (magnitude + if negative then twoTo 63 else 0)⟩

def ofInt (i : Int) : Double := ofRatio (i < 0) i.natAbs 1

def ofInt64 (i : Int64) : Double := ofInt i.toInt

/-- `2 ^ n` by repeated multiplication, a negative power as the reciprocal of the positive one:
beyond `2 ^ 1023` the product is infinite and its reciprocal zero. -/
def powerOfTwo (n : Int) : Double :=
  if n.natAbs > 1023 then (if n < 0 then zero else infinity)
  else if n < 0 then ofRatio false 1 (twoTo n.natAbs) else ofRatio false (twoTo n.natAbs) 1

def toFloat (d : Double) : Float := Float.ofBits d.bits

def ofFloat (f : Float) : Double := if f.isNaN then invalid else ⟨f.toBits⟩

/-- An operation on two numbers: a NaN operand is the result, the left one first. -/
private def lift (f : Float → Float → Float) (a b : Double) : Double :=
  if a.isNaN then ⟨a.bits ||| 0x0008000000000000⟩
  else if b.isNaN then ⟨b.bits ||| 0x0008000000000000⟩
  else ofFloat (f a.toFloat b.toFloat)

def add : Double → Double → Double := lift (· + ·)

def sub : Double → Double → Double := lift (· - ·)

def mul : Double → Double → Double := lift (· * ·)

def div : Double → Double → Double := lift (· / ·)

def one : Double := ⟨0x3ff0000000000000⟩

def two : Double := ⟨0x4000000000000000⟩

/-- Powers; a square is a product, and `x ^ 0` and `1 ^ y` are one even for a NaN. -/
def pow (a b : Double) : Double :=
  if b.isZero || a == one then one
  else if b == two then a.mul a
  else lift Float.pow a b

/-- The greatest integral number that is not above `d`; a zero keeps its sign. -/
def floor (d : Double) : Double :=
  if !d.isFinite || d.scale ≥ 0 || d.isZero then d
  else
    let unit := twoTo (-d.scale).toNat
    if d.isNegative then ofInt (-(((d.significand + (unit - 1)) / unit : Nat) : Int))
    else ofInt (d.significand / unit : Nat)

/-- The quotient rounded to the integer below. -/
def floorDiv (a b : Double) : Double := (a.div b).floor

/-- The exact remainder with the sign of the dividend. -/
def remainder (a b : Double) : Double :=
  if a.isNaN then ⟨a.bits ||| 0x0008000000000000⟩
  else if b.isNaN then ⟨b.bits ||| 0x0008000000000000⟩
  else if a.isInfinite || b.isZero then invalid
  else if b.isInfinite || a.isZero then a
  else
    let unit := min a.scale b.scale
    let top := a.significand * twoTo (a.scale - unit).toNat
    let bottom := b.significand * twoTo (b.scale - unit).toNat
    let rest := top % bottom
    if unit ≥ 0 then ofRatio a.isNegative (rest * twoTo unit.toNat) 1
    else ofRatio a.isNegative rest (twoTo (-unit).toNat)

/-- The remainder with the sign of the divisor. -/
def modulo (a b : Double) : Double :=
  let rest := a.remainder b
  if rest.isNaN || rest.isZero then rest
  else if rest.isNegative != b.isNegative then rest.add b else rest

/-- The integer a number is, if it is one. -/
def toInt? (d : Double) : Option Int :=
  if d.isFinite then
    let sign : Int := if d.isNegative then -1 else 1
    if d.scale ≥ 0 then some (sign * (d.significand * twoTo d.scale.toNat))
    else
      let unit := twoTo (-d.scale).toNat
      if d.significand % unit = 0 then some (sign * (d.significand / unit)) else none
  else none

/-- The 64-bit integer a number is, if it is one. -/
def toInt64? (d : Double) : Option Int64 :=
  match d.toInt? with
  | some i => if Int64.minValue.toInt ≤ i ∧ i ≤ Int64.maxValue.toInt then some (Int64.ofInt i) else none
  | none => none

/-- The number without its sign and its fraction. -/
def whole (d : Double) : Nat :=
  if d.scale ≥ 0 then d.significand * twoTo d.scale.toNat
  else d.significand / twoTo (-d.scale).toNat

/-- The number without its fraction. -/
def integral (d : Double) : Int := if d.isNegative then -(d.whole : Int) else d.whole

/-- Truncation toward zero into 64 bits: what lies beyond them goes to the nearer end, a NaN to zero. -/
def truncate (d : Double) : Int64 :=
  if d.isNaN then 0
  else Int64.ofInt (max Int64.minValue.toInt (min Int64.maxValue.toInt d.integral))

/-- The least 64-bit integer. -/
def lowest : Double := ⟨0xc3e0000000000000⟩

/-- The successor of the greatest 64-bit integer, which itself is no binary64 number. -/
def beyond : Double := ⟨0x43e0000000000000⟩

/-- The 64-bit integer a number is, by truncating it in range and comparing back. -/
def asInteger? (d : Double) : Option Int64 :=
  if d.isFinite && lowest.numLe d && d.numLt beyond then
    let i := d.truncate
    if (ofInt64 i).numEq d then some i else none
  else none

end Double

end ScriptBridge
