import ScriptBridge.Number.Decimal

/-!
The texts of binary64 numbers. `Double.text` has fourteen significant digits and always reads as a
float; `Double.plain` and `Double.debug` have the fewest digits that read back.
-/

namespace ScriptBridge.Double

def dropZeros (part : List Char) : List Char := Decimal.trim part

/-- Digits before and after a point; the point goes when nothing follows it. -/
def joinPoint (whole part : List Char) : List Char :=
  if part.isEmpty then whole else whole ++ '.' :: part

def signed (negative : Bool) (s : List Char) : List Char := if negative then '-' :: s else s

/-- An exponent with its sign and at least two digits. -/
def exponentText (e : Int) : List Char :=
  let digits := Decimal.digitsOf e.natAbs
  'e' :: (if e < 0 then '-' else '+') :: (if digits.length < 2 then '0' :: digits else digits)

/-- Fourteen significant digits without zeros at the end, positional for exponents from -4 to 13. -/
def generalText (d : Double) : List Char :=
  if d.isZero then signed d.isNegative ['0']
  else
    let decimal := d.significant 14
    if decimal.exponent < -4 || decimal.exponent ≥ 14 then
      signed d.isNegative
        (joinPoint (decimal.digits.take 1) (dropZeros (decimal.digits.drop 1)) ++
          exponentText decimal.exponent)
    else
      let (whole, part) := decimal.positional
      signed d.isNegative (joinPoint whole (dropZeros part))

/-- The text of a number in scripts: an integral number keeps a `.0`. -/
def textChars (d : Double) : List Char :=
  if d.isNaN then signed d.isNegative ['n', 'a', 'n']
  else if d.isInfinite then signed d.isNegative ['i', 'n', 'f']
  else
    let s := d.generalText
    if s.all fun c => ('0' ≤ c && c ≤ '9') || c == '-' then s ++ ['.', '0'] else s

def text (d : Double) : String := String.ofList d.textChars

private def special (d : Double) (finite : List Char) : String :=
  if d.isNaN then "NaN"
  else if d.isInfinite then (if d.isNegative then "-inf" else "inf")
  else String.ofList (signed d.isNegative finite)

/-- The fewest digits, always positional; an integral number has no point. -/
def plain (d : Double) : String :=
  let (whole, part) := d.shortest.positional
  d.special (joinPoint whole part)

/-- The fewest digits with at least one after the point; positional for exponents from `least` up
to 15. -/
def pointed (least : Int) (d : Double) : String :=
  let decimal := d.shortest
  let finite :=
    if d.isZero || (least ≤ decimal.exponent && decimal.exponent < 16) then
      let (whole, part) := decimal.positional
      joinPoint whole (if part.isEmpty then ['0'] else part)
    else
      joinPoint (decimal.digits.take 1) (decimal.digits.drop 1) ++
        'e' :: (toString decimal.exponent).toList
  d.special finite

/-- The text of a number in descriptions of values. -/
def debug (d : Double) : String := d.pointed (-4)

/-- The text of a number in complaints about JSON. -/
def brief (d : Double) : String := d.pointed (-5)

end ScriptBridge.Double
