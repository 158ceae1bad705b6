import ScriptBridge.Number.Double

/-!
Decimal digits of binary64 numbers, by exact arithmetic on naturals: a given number of significant
digits, or the fewest digits that read back as the same number.
-/

namespace ScriptBridge

/-- The number `0.d₁d₂… * 10 ^ (exponent + 1)`, that is `d₁.d₂… * 10 ^ exponent`. -/
structure Decimal where
  digits : List Char
  exponent : Int
deriving DecidableEq, Repr

namespace Decimal

def digitsOf (n : Nat) : List Char := Nat.toDigits 10 n

def zeros (n : Nat) : List Char := List.replicate n '0'

/-- The exponent of the leading decimal digit of `num / den`, which is positive. -/
def leading (num den : Nat) : Int :=
  if den ≤ num then ((digitsOf (num / den)).length : Int) - 1
  else
    let places := (digitsOf (den / num)).length
    if den ≤ num * tenTo (places - 1) then 1 - (places : Int) else -(places : Int)

/-- `num * 10 ^ shift / den` and what is left of it, over a common denominator. -/
def scaled (num den : Nat) (shift : Int) : Nat × Nat × Nat :=
  let top := if shift ≥ 0 then num * tenTo shift.toNat else num
  let bottom := if shift ≥ 0 then den else den * tenTo (-shift).toNat
  (top / bottom, top % bottom, bottom)

/-- `count` significant digits of `num / den`, a tie goes to the even digit. -/
def round (count num den : Nat) : Decimal :=
  let exponent := leading num den
  let (quotient, rest, bottom) := scaled num den ((count : Int) - 1 - exponent)
  let rounded :=
    if 2 * rest > bottom || (2 * rest == bottom && quotient % 2 == 1) then quotient + 1 else quotient
  if rounded = tenTo count then ⟨'1' :: zeros (count - 1), exponent + 1⟩
  else ⟨digitsOf rounded, exponent⟩

/-- Drops zeros at the end. -/
def trim (digits : List Char) : List Char := (digits.reverse.dropWhile (· == '0')).reverse

/-- The digits before and after the point in positional notation. -/
def positional (d : Decimal) : List Char × List Char :=
  if d.exponent < 0 then (['0'], zeros (-d.exponent - 1).toNat ++ d.digits)
  else
    let whole := d.exponent.toNat + 1
    (d.digits.take whole ++ zeros (whole - d.digits.length), d.digits.drop whole)

end Decimal

namespace Double

/-- The size of a finite number as a quotient of naturals. -/
def quotient (d : Double) : Nat × Nat :=
  if d.scale ≥ 0 then (d.significand * twoTo d.scale.toNat, 1)
  else (d.significand, twoTo (-d.scale).toNat)

/-- `count` significant decimal digits of a finite number other than zero. -/
def significant (count : Nat) (d : Double) : Decimal :=
  let (num, den) := d.quotient
  Decimal.round count num den

/-- Whether the decimal `digits * 10 ^ shift` reads as `d`, apart from the sign. -/
private def readsAs (d : Double) (digits : Nat) (shift : Int) : Bool :=
  let read :=
    if shift ≥ 0 then ofRatio false (digits * tenTo shift.toNat) 1
    else ofRatio false digits (tenTo (-shift).toNat)
  read.magnitude == d.magnitude

/-- The neighbours of `d` on the grid of `count` digits that read as `d`, the nearer one first. -/
private def onGrid (d : Double) (count : Nat) : Option Decimal :=
  let (num, den) := d.quotient
  let exponent := Decimal.leading num den
  let shift := (count : Int) - 1 - exponent
  let (below, rest, bottom) := Decimal.scaled num den shift
  let candidates := if 2 * rest < bottom || (2 * rest == bottom && below % 2 == 0)
    then [below, below + 1] else [below + 1, below]
  (candidates.find? fun n => n != 0 && readsAs d n (-shift)).map fun n =>
    if n = tenTo count then ⟨['1'], exponent + 1⟩ else ⟨Decimal.trim (Decimal.digitsOf n), exponent⟩

/-- The fewest digits that read back as the finite number `d`, the nearest such decimal. -/
def shortest (d : Double) : Decimal :=
  if d.isZero then ⟨['0'], 0⟩
  else ((List.range 17).findSome? fun n => onGrid d (n + 1)).getD (d.significant 17)

end Double

end ScriptBridge
