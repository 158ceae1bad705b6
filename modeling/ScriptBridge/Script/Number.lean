import ScriptBridge.Number.Numeral
import ScriptBridge.Script.Chunk

/-!
Numbers in scripts: how texts read as numbers, how numbers are written, arithmetic on them and their
order. Integers and floats compare by their exact values.
-/

namespace ScriptBridge.Script

namespace Numerals

/-- The blanks that may stand around a number: those of ASCII. -/
def isSpace (c : Char) : Bool := c == ' ' || (0x09 ≤ c.toNat && c.toNat ≤ 0x0d)

def trim (s : List Char) : List Char := ((s.dropWhile isSpace).reverse.dropWhile isSpace).reverse

private def hexValue (digits : List Nat) : Nat := digits.foldl (fun n d => 16 * n + d) 0

/-- The number nearest to `digits * 2 ^ exponent`. Powers beyond the range of binary64 are not
computed. -/
def scaleByTwo (negative : Bool) (value : Nat) (exponent : Int) : Double :=
  let leading : Int := exponent + value.log2
  if value = 0 || leading < -1200 then Double.ofRatio negative 0 1
  else if leading > 1200 then (if negative then Double.infinity.neg else .infinity)
  else if exponent ≥ 0 then Double.ofRatio negative (value * twoTo exponent.toNat) 1
  else Double.ofRatio negative value (twoTo (-exponent).toNat)

private def binaryExponent (s : List Char) : Option Int :=
  let (negative, digits) := Numeral.splitSign s
  if Numeral.isDigits digits then
    some (if negative then -(Numeral.decimalValue digits : Int) else Numeral.decimalValue digits)
  else none

/-- A hexadecimal number after `0x`. Without point and exponent its value wraps to 64 bits. -/
def readHex (negative : Bool) (s : List Char) : Option Datum := do
  let mantissa := s.takeWhile (!Numeral.isBinaryMark ·)
  let exponent := match s.dropWhile (!Numeral.isBinaryMark ·) with
    | [] => none
    | _ :: rest => some rest
  let (whole, part) := match Text.splitOnce '.' mantissa with
    | some (whole, part) => (whole, some part)
    | none => (mantissa, none)
  let high ← whole.mapM Numeral.hexValue?
  let low ← (part.getD []).mapM Numeral.hexValue?
  if (high ++ low).isEmpty then none
  else if part.isNone && exponent.isNone then
    let i := Int64.ofNat (hexValue high)
    some (.int (if negative then -i else i))
  else
    let e ← exponent.elim (some 0) binaryExponent
    some (.float (scaleByTwo negative (hexValue (high ++ low)) (e - 4 * low.length)))

/-- The number that a text reads as. -/
def read (s : List Char) : Option Datum :=
  let s := trim s
  let (negative, body) := Numeral.splitSign s
  match body with
  | '0' :: 'x' :: hex | '0' :: 'X' :: hex => readHex negative hex
  | _ =>
    match Numeral.readInteger s with
    | some i => some (.int i)
    | none => (Numeral.readDecimal s).map .float

end Numerals

/-- The number that a string reads as; only ASCII can be part of one. -/
def Bytes.readNumber (s : Bytes) : Option Datum :=
  if s.all (· < 0x80) then Numerals.read (s.map fun b => Char.ofNat b.toNat) else none

namespace Datum

def isNumber : Datum → Bool
  | .int _ | .float _ => true
  | _ => false

/-- A number, or the number that a string reads as. -/
def asNumber : Datum → Option Datum
  | .int i => some (.int i)
  | .float d => some (.float d)
  | .text s => s.readNumber
  | _ => none

def asFloat (d : Datum) : Option Double :=
  match d.asNumber with
  | some (.int i) => some (.ofInt64 i)
  | some (.float x) => some x
  | _ => none

/-- An integer, a float that is one, or a string that reads as such a number. -/
def asInt (d : Datum) : Option Int64 :=
  match d.asNumber with
  | some (.int i) => some i
  | some (.float x) => x.toInt64?
  | _ => none

/-- The text of a string or a number. -/
def asText : Datum → Option Bytes
  | .text s => some s
  | .int i => some (Bytes.ofString (toString i.toInt))
  | .float d => some (Bytes.ofString d.text)
  | _ => none

end Datum

/-- Why arithmetic on numbers fails. -/
inductive ArithmeticError where
  | divisionByZero
  | moduloByZero

def ArithmeticError.message : ArithmeticError → String
  | .divisionByZero => "attempt to divide by zero"
  | .moduloByZero => "attempt to perform 'n%%0'"

namespace BinaryOp

/-- The operators that take integers bit by bit. -/
def isBitwise : BinaryOp → Bool
  | .band | .bor | .bxor | .shl | .shr => true
  | _ => false

def onIntegers (op : BinaryOp) (a b : Int64) : Option (Except ArithmeticError Datum) :=
  match op with
  | .add => some (.ok (.int (a + b)))
  | .sub => some (.ok (.int (a - b)))
  | .mul => some (.ok (.int (a * b)))
  | .idiv =>
    some (if b == 0 then .error .divisionByZero
      else .ok (.int (Int64.ofInt (a.toInt.fdiv b.toInt))))
  | .mod =>
    some (if b == 0 then .error .moduloByZero
      else .ok (.int (Int64.ofInt (a.toInt.fmod b.toInt))))
  | _ => none

def onFloats (op : BinaryOp) (a b : Double) : Option Datum :=
  match op with
  | .add => some (.float (a.add b))
  | .sub => some (.float (a.sub b))
  | .mul => some (.float (a.mul b))
  | .div => some (.float (a.div b))
  | .idiv => some (.float (a.floorDiv b))
  | .mod => some (.float (a.modulo b))
  | .pow => some (.float (a.pow b))
  | _ => none

/-- Shifts to the left; a negative distance shifts to the right, and both fill with zeros. -/
def shiftLeft (a : Int64) (distance : Int) : Int64 :=
  if distance ≥ 64 || distance ≤ -64 then 0
  else if distance ≥ 0 then (a.toUInt64 <<< UInt64.ofNat distance.toNat).toInt64
  else (a.toUInt64 >>> UInt64.ofNat (-distance).toNat).toInt64

def onBits (op : BinaryOp) (a b : Int64) : Option Datum :=
  match op with
  | .band => some (.int (a &&& b))
  | .bor => some (.int (a ||| b))
  | .bxor => some (.int (a ^^^ b))
  | .shl => some (.int (shiftLeft a b.toInt))
  | .shr => some (.int (shiftLeft a (-b.toInt)))
  | _ => none

/-- Arithmetic on two numbers, or on strings that read as numbers; nothing for other operands. -/
def compute (op : BinaryOp) (left right : Datum) : Option (Except ArithmeticError Datum) :=
  if op.isBitwise then do
    let a ← left.asInt
    let b ← right.asInt
    let result ← op.onBits a b
    some (.ok result)
  else
    match left.asNumber, right.asNumber with
    | some (.int a), some (.int b) =>
      (op.onIntegers a b).orElse fun _ => (op.onFloats (.ofInt64 a) (.ofInt64 b)).map .ok
    | some _, some _ => do
      let a ← left.asFloat
      let b ← right.asFloat
      let result ← op.onFloats a b
      some (.ok result)
    | _, _ => none

end BinaryOp

namespace Datum

/-- The order of an integer and a finite float. -/
private def compareExactly (i : Int64) (d : Double) : Ordering :=
  let (num, den) := d.quotient
  let other : Int := if d.isNegative then -(num : Int) else num
  compare (i.toInt * den) other

private def intLess (i : Int64) (d : Double) (orEqual : Bool) : Bool :=
  if d.isNaN then false
  else if d.isInfinite then !d.isNegative
  else match compareExactly i d with
    | .lt => true
    | .eq => orEqual
    | .gt => false

private def floatLess (d : Double) (i : Int64) (orEqual : Bool) : Bool :=
  if d.isNaN then false
  else if d.isInfinite then d.isNegative
  else match compareExactly i d with
    | .gt => true
    | .eq => orEqual
    | .lt => false

/-- Whether a datum comes before another one: numbers by value, strings by bytes. -/
def less (orEqual : Bool) : Datum → Datum → Option Bool
  | .int a, .int b => some (if orEqual then a ≤ b else a < b)
  | .float a, .float b => some (if orEqual then a.numLe b else a.numLt b)
  | .int a, .float b => some (intLess a b orEqual)
  | .float a, .int b => some (floatLess a b orEqual)
  | .text a, .text b => some (if orEqual then decide (a ≤ b) else decide (a < b))
  | _, _ => none

end Datum

/-- How often a loop over integers runs after its first time; nothing if it does not run at all. -/
def loopCount (start limit step : Int) : Option Nat :=
  if 0 < step then (if limit < start then none else some ((limit - start) / step).toNat)
  else if start < limit then none
  else some ((start - limit) / (-step)).toNat

/-- The last integer that a loop may reach; nothing if the loop does not run. -/
def loopLimit (limit : Datum) (step : Int) : Option Int :=
  match limit.asNumber with
  | some (.int i) => some i.toInt
  | some (.float d) =>
    if d.isNaN then none
    else if d.isInfinite then
      (if d.isNegative then (if 0 < step then none else some Int64.minValue.toInt)
        else (if 0 < step then some Int64.maxValue.toInt else none))
    else
      let whole := if 0 < step then d.floor.toInt? else (d.neg.floor.toInt?).map (- ·)
      whole.map fun i => max Int64.minValue.toInt (min Int64.maxValue.toInt i)
  | _ => none

end ScriptBridge.Script
