import ScriptBridge.Number.FloatText
import ScriptBridge.Text.Quoted
import ScriptBridge.Text.Utf8

/-!
Reading JSON text by a cursor. Every defect names the place where reading stopped, as a line and a
column in bytes; some defects are placed at the byte to be read next, others at the last one read.
-/

namespace ScriptBridge.Json

/-- What is wrong with a JSON text. -/
inductive Defect where
  | endOfList
  | endOfObject
  | endOfString
  | endOfValue
  | colonExpected
  | listEndExpected
  | objectEndExpected
  | identExpected
  | valueExpected
  | invalidEscape
  | invalidNumber
  | numberOutOfRange
  | controlCharacter
  | keyExpected
  | loneSurrogate
  | trailingComma
  | trailingCharacters
  | endOfEscape
  | custom (message : String)
deriving DecidableEq, Repr

def Defect.text : Defect → String
  | endOfList => "EOF while parsing a list"
  | endOfObject => "EOF while parsing an object"
  | endOfString => "EOF while parsing a string"
  | endOfValue => "EOF while parsing a value"
  | colonExpected => "expected `:`"
  | listEndExpected => "expected `,` or `]`"
  | objectEndExpected => "expected `,` or `\x7d`"
  | identExpected => "expected ident"
  | valueExpected => "expected value"
  | invalidEscape => "invalid escape"
  | invalidNumber => "invalid number"
  | numberOutOfRange => "number out of range"
  | controlCharacter => "control character (\\u0000-\\u001F) found while parsing a string"
  | keyExpected => "key must be a string"
  | loneSurrogate => "lone leading surrogate in hex escape"
  | trailingComma => "trailing comma"
  | trailingCharacters => "trailing characters"
  | endOfEscape => "unexpected end of hex escape"
  | custom message => message

structure Position where
  line : Nat
  column : Nat
deriving DecidableEq, Repr

/-- A defect, placed once its position is known. -/
structure Failure where
  defect : Defect
  position : Option Position
deriving DecidableEq, Repr

def Failure.text (f : Failure) : String :=
  match f.position with
  | some p => s!"{f.defect.text} at line {p.line} column {p.column}"
  | none => f.defect.text

structure Cursor where
  bytes : Array UInt8
  index : Nat

/-- A reading action. A failure leaves the cursor where it came to stand. -/
abbrev Scan := ExceptT Failure (StateM Cursor)

namespace Scan

/-- The line and column of the first `index` bytes. -/
def positionOf (bytes : Array UInt8) (index : Nat) : Position :=
  (bytes.toList.take index).foldl
    (fun p b => if b == 0x0a then ⟨p.line + 1, 0⟩ else ⟨p.line, p.column + 1⟩) ⟨1, 0⟩

/-- Fails at the last byte read. -/
def failHere (d : Defect) : Scan α := do
  let c ← get
  throw ⟨d, some (positionOf c.bytes c.index)⟩

/-- Fails at the byte to be read next. -/
def failNext (d : Defect) : Scan α := do
  let c ← get
  throw ⟨d, some (positionOf c.bytes (min c.bytes.size (c.index + 1)))⟩

/-- Fails without a place; `placed` supplies it. -/
def failLater (message : String) : Scan α := throw ⟨.custom message, none⟩

/-- Places a defect that has no position at the last byte read. -/
def placed (action : Scan α) : Scan α :=
  tryCatch action fun f => do
    match f.position with
    | some _ => throw f
    | none => failHere f.defect

def peek : Scan (Option UInt8) := do
  let c ← get
  pure c.bytes[c.index]?

def eat : Scan Unit := modify fun c => { c with index := c.index + 1 }

def next : Scan (Option UInt8) := do
  match ← peek with
  | some b => eat; pure (some b)
  | none => pure none

/-- Repeats an action until it says stop; the text's length bounds the rounds. -/
def rounds (step : Scan Bool) : Nat → Scan Unit
  | 0 => pure ()
  | n + 1 => do if ← step then rounds step n

def whileSome (step : Scan Bool) : Scan Unit := do
  let c ← get
  rounds step (c.bytes.size + 1)

def isBlank (b : UInt8) : Bool := b == 0x20 || b == 0x0a || b == 0x09 || b == 0x0d

/-- Skips blanks and shows the byte after them. -/
def peekToken : Scan (Option UInt8) := do
  whileSome do
    match ← peek with
    | some b => if isBlank b then eat; pure true else pure false
    | none => pure false
  peek

def isDigit (b : UInt8) : Bool := 0x30 ≤ b && b ≤ 0x39

def peekDigit : Scan (Option Nat) := do
  match ← peek with
  | some b => pure (if isDigit b then some (b.toNat - 0x30) else none)
  | none => pure none

def skipDigits : Scan Unit :=
  whileSome do
    match ← peekDigit with
    | some _ => eat; pure true
    | none => pure false

/-- The digits from here on, most significant first. -/
def readDigits : Scan (List Nat) := do
  let c ← get
  let digits := ((c.bytes.toList.drop c.index).takeWhile isDigit).map (·.toNat - 0x30)
  set { c with index := c.index + digits.length }
  pure digits

/-- The rest of a fixed word. -/
def word (rest : String) : Scan Unit :=
  rest.toUTF8.toList.forM fun expected => do
    match ← next with
    | none => failHere .endOfValue
    | some b => if b == expected then pure () else failHere .identExpected

def hexValue (b : UInt8) : Option Nat :=
  if isDigit b then some (b.toNat - 0x30)
  else if 0x41 ≤ b && b ≤ 0x46 then some (b.toNat - 0x37)
  else if 0x61 ≤ b && b ≤ 0x66 then some (b.toNat - 0x57)
  else none

/-- Four hexadecimal digits. -/
def hexEscape : Scan Nat := do
  let c ← get
  if c.index + 4 ≤ c.bytes.size then
    let digits := (c.bytes.toList.drop c.index).take 4
    set { c with index := c.index + 4 }
    match digits.mapM hexValue with
    | some values => pure (values.foldl (fun n d => 16 * n + d) 0)
    | none => failHere .invalidEscape
  else
    set { c with index := c.bytes.size }
    failHere .endOfString

def simpleEscape (b : UInt8) : Option Char :=
  if b == 0x22 then some '"' else if b == 0x5c then some '\\' else if b == 0x2f then some '/'
  else if b == 0x62 then some '\x08' else if b == 0x66 then some '\x0c'
  else if b == 0x6e then some '\n' else if b == 0x72 then some '\r'
  else if b == 0x74 then some '\t' else none

private def expectOrEnd (expected : UInt8) : Scan Unit := do
  match ← peek with
  | none => failHere .endOfString
  | some b => do
    eat
    if b == expected then pure () else failHere .endOfEscape

/-- A character after `\u`: one escape, or the two of a surrogate pair. -/
def unicodeEscape : Scan Char := do
  let high ← hexEscape
  if 0xdc00 ≤ high && high ≤ 0xdfff then failHere .loneSurrogate
  else if 0xd800 ≤ high && high ≤ 0xdbff then do
    expectOrEnd 0x5c
    expectOrEnd 0x75
    let low ← hexEscape
    if low < 0xdc00 || 0xdfff < low then failHere .loneSurrogate
    else pure (Char.ofNat ((high - 0xd800) * 1024 + (low - 0xdc00) + 0x10000))
  else pure (Char.ofNat high)

def escape : Scan Char := do
  match ← next with
  | none => failHere .endOfString
  | some b =>
    match simpleEscape b with
    | some c => pure c
    | none => if b == 0x75 then unicodeEscape else failHere .invalidEscape

private def stringRounds (out : List UInt8) : Nat → Scan (List UInt8)
  | 0 => pure out
  | n + 1 => do
    match ← peek with
    | none => failHere .endOfString
    | some b =>
      eat
      if b == 0x22 then pure out
      else if b == 0x5c then do
        let c ← escape
        stringRounds ((String.singleton c).toUTF8.toList.reverse ++ out) n
      else if b < 0x20 then failHere .controlCharacter
      else stringRounds (b :: out) n

/-- A string after its opening quote. -/
def string : Scan String := do
  let c ← get
  let out ← stringRounds [] (c.bytes.size + 1)
  pure (Text.decodeLossy out.reverse)

/-- Skips a string after its opening quote; the values of escapes do not matter. -/
def skipString : Scan Unit :=
  whileSome do
    match ← peek with
    | none => failHere .endOfString
    | some b =>
      if b == 0x22 then eat; pure false
      else if b == 0x5c then do
        eat
        match ← next with
        | none => failHere .endOfString
        | some e =>
          if (simpleEscape e).isSome then pure true
          else if e == 0x75 then do let _ ← hexEscape; pure true
          else failHere .invalidEscape
      else if b < 0x20 then failHere .controlCharacter
      else eat; pure true

/-- The exponent of a skipped number, from its mark on. -/
private def skipExponent : Scan Unit := do
  eat
  match ← peek with
  | some b => if b == 0x2b || b == 0x2d then eat else pure ()
  | none => pure ()
  match ← next with
  | some b => if isDigit b then skipDigits else failHere .invalidNumber
  | none => failHere .invalidNumber

private def isExponentMark (b : UInt8) : Bool := b == 0x65 || b == 0x45

private def skipFraction : Scan Unit := do
  eat
  match ← peekDigit with
  | none => failNext .invalidNumber
  | some _ =>
    skipDigits
    match ← peek with
    | some b => if isExponentMark b then skipExponent else pure ()
    | none => pure ()

/-- Skips a number after its sign. -/
def skipNumber : Scan Unit := do
  match ← next with
  | some b =>
    if b == 0x30 then
      match ← peekDigit with
      | some _ => failNext .invalidNumber
      | none => pure ()
    else if isDigit b then skipDigits
    else failHere .invalidNumber
  | none => failHere .invalidNumber
  match ← peek with
  | some b =>
    if b == 0x2e then skipFraction
    else if isExponentMark b then skipExponent
    else pure ()
  | none => pure ()

/-- A number as far as descriptions of it tell numbers apart. -/
inductive Number where
  | integer (i : Int)
  | float (d : Double)

private def powerOfTen (n : Nat) : Double := Double.ofRatio false (tenTo n) 1

/-- `significand * 10 ^ exponent`, by one multiplication or by divisions. -/
private def floatOfParts (positive : Bool) (significand : Nat) (exponent : Int) : Scan Double := do
  let start := Double.ofRatio false significand 1
  let rec shrink : Nat → Double → Int → Scan Double
    | 0, f, _ => pure f
    | n + 1, f, e =>
      if e.natAbs ≤ 308 then
        if e ≥ 0 then do
          let f := f.mul (powerOfTen e.natAbs)
          if f.isInfinite then failHere .numberOutOfRange else pure f
        else pure (f.div (powerOfTen e.natAbs))
      else if f.isZero then pure f
      else if e ≥ 0 then failHere .numberOutOfRange
      else shrink n (f.div (powerOfTen 308)) (e + 308)
  let f ← shrink 5 start (max exponent (-1300))
  pure (if positive then f else f.neg)

/-- As many leading digits as fit in 64 bits, with their value. -/
private def fitting (start : Nat) : List Nat → Nat × List Nat
  | [] => (start, [])
  | d :: rest =>
    if 10 * start + d ≥ twoTo 64 then (start, d :: rest) else fitting (10 * start + d) rest

private def readExponent (positive : Bool) (significand : Nat) (start : Int) : Scan Double := do
  eat
  let up ← (do
    match ← peek with
    | some b =>
      if b == 0x2b then eat; pure true
      else if b == 0x2d then eat; pure false
      else pure true
    | none => pure true)
  match ← next with
  | none => failHere .endOfValue
  | some b =>
    if !isDigit b then failHere .invalidNumber
    else
      let c ← get
      let more := ((c.bytes.toList.drop c.index).takeWhile isDigit).map (·.toNat - 0x30)
      let rec magnitude (e taken : Nat) : List Nat → Nat × Nat × Bool
        | [] => (e, taken, false)
        | d :: rest =>
          if 10 * e + d > 2147483647 then (e, taken + 1, true) else magnitude (10 * e + d) (taken + 1) rest
      let (e, taken, overflow) := magnitude (b.toNat - 0x30) 0 more
      set { c with index := c.index + taken }
      if overflow then
        if significand ≠ 0 && up then failHere .numberOutOfRange
        else
          skipDigits
          pure (if positive then .zero else Double.zero.neg)
      else floatOfParts positive significand (if up then start + e else start - e)

private def afterInteger (positive : Bool) (significand : Nat) (exponent : Int) : Scan Double := do
  match ← peek with
  | some b =>
    if isExponentMark b then readExponent positive significand exponent
    else floatOfParts positive significand exponent
  | none => floatOfParts positive significand exponent

private def readFraction (positive : Bool) (significand : Nat) (exponent : Int) : Scan Double := do
  eat
  let digits ← readDigits
  if digits.isEmpty then
    match ← peek with
    | some _ => failNext .invalidNumber
    | none => failNext .endOfValue
  else
    let (value, rest) := fitting significand digits
    afterInteger positive value (exponent - (digits.length - rest.length : Nat))

/-- A number after its sign. Integers of 64 bits stay exact. -/
def number (positive : Bool) : Scan Number := do
  match ← next with
  | none => failHere .endOfValue
  | some b =>
    if !isDigit b then failHere .invalidNumber
    else
      let leading := b.toNat - 0x30
      let digits ← (do
        if leading = 0 then
          match ← peekDigit with
          | some _ => failNext .invalidNumber
          | none => pure []
        else readDigits)
      let (value, rest) := fitting leading digits
      match ← peek with
      | some c =>
        if c == 0x2e then
          return .float (← readFraction positive value rest.length)
        else if isExponentMark c then
          return .float (← readExponent positive value rest.length)
      | none => pure ()
      if !rest.isEmpty then
        return .float (← floatOfParts positive value rest.length)
      else if positive then return .integer value
      else if value = 0 || value > twoTo 63 then return .float (Double.ofRatio true value 1)
      else return .integer (-(value : Int))

/-- Skips the brackets that close here; says which bracket stays open and whether a comma came. -/
private def closeBrackets (acceptComma : Bool) (frame : UInt8) (outer : List UInt8) :
    Nat → Scan (Option (UInt8 × List UInt8))
  | 0 => pure none
  | n + 1 => do
    match ← peekToken with
    | none => failNext (if frame == 0x5b then .endOfList else .endOfObject)
    | some b =>
      if b == 0x2c && acceptComma then eat; pure (some (frame, outer))
      else if (b == 0x5d && frame == 0x5b) || (b == 0x7d && frame == 0x7b) then do
        eat
        match outer with
        | [] => pure none
        | f :: rest => closeBrackets true f rest n
      else if acceptComma then
        failNext (if frame == 0x5b then .listEndExpected else .objectEndExpected)
      else pure (some (frame, outer))

private def skipKey : Scan Unit := do
  match ← peekToken with
  | some b => if b == 0x22 then eat else failNext .keyExpected
  | none => failNext .endOfObject
  skipString
  match ← peekToken with
  | some b => if b == 0x3a then eat else failNext .colonExpected
  | none => failNext .endOfObject

/-- Skips values until the brackets opened here are closed. -/
private def skipRounds (size : Nat) (outer : List UInt8) : Nat → Scan Unit
  | 0 => pure ()
  | n + 1 => do
    let opened ← (do
      match ← peekToken with
      | none => failNext .endOfValue
      | some b =>
        if b == 0x6e then eat; word "ull"; pure none
        else if b == 0x74 then eat; word "rue"; pure none
        else if b == 0x66 then eat; word "alse"; pure none
        else if b == 0x2d then eat; skipNumber; pure none
        else if isDigit b then skipNumber; pure none
        else if b == 0x22 then eat; skipString; pure none
        else if b == 0x5b || b == 0x7b then eat; pure (some b)
        else failNext .valueExpected)
    let still ← (match opened, outer with
      | some frame, outer => closeBrackets false frame outer size
      | none, frame :: outer => closeBrackets true frame outer size
      | none, [] => pure none)
    match still with
    | none => pure ()
    | some (frame, outer) =>
      if frame == 0x7b then skipKey
      skipRounds size (frame :: outer) n

/-- Skips one value of any form. -/
def skipValue : Scan Unit := do
  let c ← get
  skipRounds (c.bytes.size + 1) [] (c.bytes.size + 1)

private def mismatch (found expected : String) : Scan α :=
  failLater ("invalid type: " ++ found ++ ", expected " ++ expected)

/-- Fails because the value here is not of the expected form. -/
def wrongType (expected : String) : Scan α := placed do
  match ← peek with
  | none => failNext .valueExpected
  | some b =>
    if b == 0x6e then eat; word "ull"; mismatch "null" expected
    else if b == 0x74 then eat; word "rue"; mismatch "boolean `true`" expected
    else if b == 0x66 then eat; word "alse"; mismatch "boolean `false`" expected
    else if b == 0x2d then eat; describe (← number false)
    else if isDigit b then describe (← number true)
    else if b == 0x22 then eat; mismatch ("string " ++ Text.quoted (← string)) expected
    else if b == 0x5b then mismatch "sequence" expected
    else if b == 0x7b then mismatch "map" expected
    else failNext .valueExpected
where
  describe : Number → Scan α
    | .integer i => mismatch s!"integer `{i}`" expected
    | .float d => mismatch ("floating point `" ++ d.brief ++ "`") expected

def tokenOrEnd : Scan UInt8 := do
  match ← peekToken with
  | some b => pure b
  | none => failNext .endOfValue

/-- The end of a list. -/
def endList : Scan Unit := do
  match ← peekToken with
  | some b =>
    if b == 0x5d then eat
    else if b == 0x2c then do
      eat
      match ← peekToken with
      | some c => if c == 0x5d then failNext .trailingComma else failNext .trailingCharacters
      | none => failNext .trailingCharacters
    else failNext .trailingCharacters
  | none => failNext .endOfList

def endObject : Scan Unit := do
  match ← peekToken with
  | some b =>
    if b == 0x7d then eat
    else if b == 0x2c then failNext .trailingComma
    else failNext .trailingCharacters
  | none => failNext .endOfObject

/-- Runs `body` and then `close` whether or not `body` failed; the failure of `body` counts first. -/
def enclosed (body : Scan α) (close : Scan Unit) : Scan α := do
  let inside ← (tryCatch (.ok <$> body) fun f => pure (.error f) : Scan (Except Failure α))
  let after ← (tryCatch (.ok <$> close) fun f => pure (.error f) : Scan (Except Failure Unit))
  match inside, after with
  | .ok a, .ok _ => pure a
  | .error f, _ => throw f
  | .ok _, .error f => throw f

/-- Whether another element of a list follows. -/
def moreElements (isFirst : Bool) : Scan Bool := do
  match ← peekToken with
  | none => failNext .endOfList
  | some b =>
    if b == 0x5d then pure false
    else if isFirst then pure true
    else if b == 0x2c then do
      eat
      match ← peekToken with
      | some c => if c == 0x5d then failNext .trailingComma else pure true
      | none => failNext .endOfValue
    else failNext .listEndExpected

/-- Whether another key of an object follows. -/
def moreKeys (isFirst : Bool) : Scan Bool := do
  match ← peekToken with
  | none => failNext .endOfObject
  | some b =>
    if b == 0x7d then pure false
    else if isFirst then
      if b == 0x22 then pure true else failNext .keyExpected
    else if b == 0x2c then do
      eat
      match ← peekToken with
      | some c =>
        if c == 0x22 then pure true
        else if c == 0x7d then failNext .trailingComma
        else failNext .keyExpected
      | none => failNext .endOfValue
    else failNext .objectEndExpected

def colon : Scan Unit := do
  match ← peekToken with
  | some b => if b == 0x3a then eat else failNext .colonExpected
  | none => failNext .endOfObject

def boolean : Scan Bool := do
  let b ← tokenOrEnd
  placed do
    if b == 0x74 then eat; word "rue"; pure true
    else if b == 0x66 then eat; word "alse"; pure false
    else wrongType "a boolean"

/-- A string value, named as `expected` when another form stands there. -/
def stringValue (expected : String) : Scan String := do
  let b ← tokenOrEnd
  placed do
    if b == 0x22 then eat; string else wrongType expected

def null : Scan Unit := do
  let b ← tokenOrEnd
  placed do
    if b == 0x6e then eat; word "ull" else wrongType "unit"

/-- Runs an action on a whole text; only blanks may follow. -/
def runAll (action : Scan α) (text : String) : Except Failure α :=
  let whole : Scan α := do
    let a ← action
    match ← peekToken with
    | some _ => failNext .trailingCharacters
    | none => pure a
  (whole.run ⟨text.toUTF8.data, 0⟩).1

end Scan

end ScriptBridge.Json
