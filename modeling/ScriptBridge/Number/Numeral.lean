import ScriptBridge.Number.Double
import ScriptBridge.Text.Blank

/-!
Numerals: texts that read as a number. A numeral is decimal or hexadecimal, may have a sign, blanks
around it, a point and an exponent; without point and exponent it is an integer where it fits.
-/

namespace ScriptBridge

/-- What a numeral denotes. -/
inductive Numeral where
  | integer (i : Int64)
  | float (d : Double)
deriving DecidableEq, Repr

namespace Numeral

def isDigit (c : Char) : Bool := '0' ≤ c && c ≤ '9'

def digitValue (c : Char) : Nat := c.toNat - '0'.toNat

def hexValue? (c : Char) : Option Nat :=
  if isDigit c then some (c.toNat - '0'.toNat)
  else if 'a' ≤ c ∧ c ≤ 'f' then some (c.toNat - 'a'.toNat + 10)
  else if 'A' ≤ c ∧ c ≤ 'F' then some (c.toNat - 'A'.toNat + 10)
  else none

/-- The value of a string of decimal digits. -/
def decimalValue (digits : List Char) : Nat :=
  digits.foldl (fun value c => 10 * value + digitValue c) 0

/-- A sign, if there is one, and what follows it. -/
def splitSign : List Char → Bool × List Char
  | '-' :: rest => (true, rest)
  | '+' :: rest => (false, rest)
  | s => (false, s)

/-- One or more decimal digits. -/
def isDigits (s : List Char) : Bool := !s.isEmpty && s.all isDigit

/-- A signed string of digits whose value fits in 64 bits. -/
def readInteger (s : List Char) : Option Int64 :=
  let (negative, digits) := splitSign s
  if isDigits digits then
    let value : Int := if negative then -(decimalValue digits : Int) else decimalValue digits
    if Int64.minValue.toInt ≤ value ∧ value ≤ Int64.maxValue.toInt then some (Int64.ofInt value) else none
  else none

/-- The number nearest to `digits * 10 ^ exponent`. Powers beyond the range of binary64 are not
computed. -/
def scaleByTen (negative : Bool) (digits : List Char) (exponent : Int) : Double :=
  let significant := digits.dropWhile (· == '0')
  let value := decimalValue significant
  let leading := exponent + significant.length
  if value = 0 || leading < -400 then Double.ofRatio negative 0 1
  else if leading > 400 then ⟨Double.infinity.bits ^^^ (if negative then 0x8000000000000000 else 0)⟩
  else if exponent ≥ 0 then Double.ofRatio negative (value * tenTo exponent.toNat) 1
  else Double.ofRatio negative value (tenTo (-exponent).toNat)

/-- The exponent of a decimal numeral, after its mark. -/
def readExponent (s : List Char) : Option Int :=
  let (negative, digits) := splitSign s
  if isDigits digits then
    some (if negative then -(decimalValue digits : Int) else decimalValue digits)
  else none

def isExponentMark (c : Char) : Bool := c == 'e' || c == 'E'

/-- A signed decimal numeral: digits with at most one point and at least one digit, then an
optional exponent. -/
def readDecimal (s : List Char) : Option Double :=
  let (negative, body) := splitSign s
  let mantissa := body.takeWhile (!isExponentMark ·)
  let exponent := match body.dropWhile (!isExponentMark ·) with
    | [] => some 0
    | _ :: rest => readExponent rest
  let (whole, part) := match Text.splitOnce '.' mantissa with
    | some (whole, part) => (whole, part)
    | none => (mantissa, [])
  match exponent with
  | some exponent =>
    if isDigits (whole ++ part) then
      some (scaleByTen negative (whole ++ part) (exponent - part.length))
    else none
  | none => none

/-- The numbers that are words, in any case of letters. -/
def wordValue? (s : List Char) : Option Double :=
  let word := s.map Char.toLower
  if word = ['i', 'n', 'f'] ∨ word = ['i', 'n', 'f', 'i', 'n', 'i', 't', 'y'] then some .infinity
  else if word = ['n', 'a', 'n'] then some .positiveNaN
  else none

/-- A signed decimal numeral or a signed word. -/
def readFloat (s : List Char) : Option Double :=
  let (negative, body) := splitSign s
  match wordValue? body with
  | some d => some (if negative then d.neg else d)
  | none => readDecimal s

/-- The value of hexadecimal digits in binary64, digit by digit. -/
def hexSum (start : Double) (digits : List Nat) : Double :=
  digits.foldl (fun value digit => (value.mul (Double.ofInt 16)).add (Double.ofInt (digit : Nat))) start

/-- Binary exponents are kept within 32 bits. -/
def clampExponent (e : Int) : Int := max Int32.minValue.toInt (min Int32.maxValue.toInt e)

def isBinaryMark (c : Char) : Bool := c == 'p' || c == 'P'

/-- The exponent of a hexadecimal numeral, after its mark. -/
def readBinaryExponent (s : List Char) : Option Int :=
  let (negative, digits) := splitSign s
  if isDigits digits then
    let size := min (decimalValue digits : Int) Int32.maxValue.toInt
    some (if negative then -size else size)
  else none

/-- The integer of some hexadecimal digits, which wraps to 64 bits at every digit. -/
def hexInteger (digits : List Nat) : Int64 :=
  digits.foldl (fun value digit => value * 16 + Int64.ofNat digit) 0

/-- To wrap once at the end comes to the same. -/
theorem hexInteger_eq (digits : List Nat) :
    hexInteger digits =
      Int64.ofNat (digits.foldl (fun value digit => 16 * value + digit) 0) := by
  have each (n : Nat) :
      digits.foldl (fun value digit => value * 16 + Int64.ofNat digit) (Int64.ofNat n) =
        Int64.ofNat (digits.foldl (fun value digit => 16 * value + digit) n) := by
    induction digits generalizing n with
    | nil => rfl
    | cons digit rest ih =>
      rw [List.foldl_cons, List.foldl_cons, ← ih, Int64.ofNat_add, Int64.ofNat_mul, Int64.mul_comm]
      rfl
  exact each 0

/-- A hexadecimal numeral after `0x`. Without point and exponent it is an integer. -/
def readHex (s : List Char) : Option Numeral :=
  let mantissa := s.takeWhile (!isBinaryMark ·)
  let exponent := match s.dropWhile (!isBinaryMark ·) with
    | [] => none
    | _ :: rest => some rest
  let (whole, part) := match Text.splitOnce '.' mantissa with
    | some (whole, part) => (whole, some part)
    | none => (mantissa, none)
  if whole.isEmpty && (part.getD []).isEmpty then none
  else
    match whole.mapM hexValue?, (part.getD []).mapM hexValue? with
    | some high, some low =>
      if part.isNone && exponent.isNone then
        some (.integer (hexInteger high))
      else
        match exponent.elim (some 0) readBinaryExponent with
        | some e =>
          let value := hexSum (hexSum .zero high) low
          let scale := clampExponent (clampExponent (-4 * low.length) + e)
          some (.float (if value.isZero then .zero else value.mul (Double.powerOfTwo scale)))
        | none => none
    | _, _ => none

def negate : Numeral → Numeral
  | .integer i => .integer (-i)
  | .float d => .float d.neg

def isLetter (c : Char) : Bool := ('a' ≤ c && c ≤ 'z') || ('A' ≤ c && c ≤ 'Z')

/-- The number a text reads as. -/
def parse (s : List Char) : Option Numeral :=
  let s := Text.trim s
  let (negative, body) := splitSign s
  match body with
  | [] => none
  | '0' :: 'x' :: hex | '0' :: 'X' :: hex =>
    (readHex hex).map fun n => if negative then n.negate else n
  | _ =>
    match readInteger s with
    | some i => some (.integer i)
    | none =>
      -- Words are no numerals.
      if body.any fun c => isLetter c && !isExponentMark c then none
      else (readFloat s).map .float

def parse? (s : String) : Option Numeral := parse s.toList

def toDouble : Numeral → Double
  | .integer i => .ofInt64 i
  | .float d => d

/-- The integer a numeral denotes, exactly. -/
def toInt64? : Numeral → Option Int64
  | .integer i => some i
  | .float d => d.asInteger?

end Numeral

end ScriptBridge
