import ScriptBridge.Script.Number

/-!
Tokens of scripts and how a text is cut into them.
-/

namespace ScriptBridge.Script

/-- A token: a word or sign of the grammar, a name, a constant, or the end. -/
inductive Token where
  | sign (s : String)
  | name (s : String)
  | text (raw : Bytes) (value : Bytes)
  | int (raw : Bytes) (i : Int64)
  | float (raw : Bytes) (d : Double)
  | eof
deriving DecidableEq, Inhabited

/-- A token with the line it ends on. -/
structure Placed where
  token : Token
  line : Nat
deriving Inhabited

/-- Why a script does not parse: what is wrong, where, and what stands there. -/
structure ParseError where
  message : String
  line : Nat
  near : Option Bytes
deriving Inhabited

namespace Token

def reserved : List String :=
  ["and", "break", "do", "else", "elseif", "end", "false", "for", "function", "goto", "if", "in",
   "local", "nil", "not", "or", "repeat", "return", "then", "true", "until", "while"]

/-- The token as messages show it. -/
def shown : Token → Bytes
  | .sign s => Bytes.ofString ("'" ++ s ++ "'")
  | .name s => Bytes.ofString ("'" ++ s ++ "'")
  | .text raw _ | .int raw _ | .float raw _ => 0x27 :: raw ++ [0x27]
  | .eof => Bytes.ofString "<eof>"

end Token

namespace Lexer

def isAlpha (b : UInt8) : Bool :=
  (0x41 ≤ b && b ≤ 0x5a) || (0x61 ≤ b && b ≤ 0x7a) || b == 0x5f

def isDigit (b : UInt8) : Bool := 0x30 ≤ b && b ≤ 0x39

def isWord (b : UInt8) : Bool := isAlpha b || isDigit b

def isSpace (b : UInt8) : Bool := b == 0x20 || (0x09 ≤ b && b ≤ 0x0d)

def isNewline (b : UInt8) : Bool := b == 0x0a || b == 0x0d

def hexValue (b : UInt8) : Option Nat :=
  if isDigit b then some (b.toNat - 0x30)
  else if 0x41 ≤ b && b ≤ 0x46 then some (b.toNat - 0x37)
  else if 0x61 ≤ b && b ≤ 0x66 then some (b.toNat - 0x57)
  else none

/-- Signs of two or three characters, longest first. -/
def longSigns : List String := ["...", "..", "==", "~=", "<=", ">=", "//", "<<", ">>", "::"]

def shortSigns : List UInt8 := "+-*/%^#&~|<>=()\x7b\x7d[];:,.".toUTF8.toList

/-- Drops one line break: a line feed and a carriage return in either order count as one. -/
def dropNewline : Bytes → Bytes
  | 0x0a :: 0x0d :: rest | 0x0d :: 0x0a :: rest => rest
  | _ :: rest => rest
  | [] => []

/-- The level of an opening long bracket and what follows it. -/
def longOpen : Bytes → Option (Nat × Bytes)
  | 0x5b :: rest =>
    let level := (rest.takeWhile (· == 0x3d)).length
    match rest.drop level with
    | 0x5b :: after => some (level, after)
    | _ => none
  | _ => none

/-- A long string from after its opening bracket: its content, the rest, the line it ends on. -/
def longBody (level : Nat) (acc : Bytes) : Nat → Nat → Bytes → Option (Bytes × Bytes × Nat)
  | 0, _, _ => none
  | _, _, [] => none
  | n + 1, line, b :: rest =>
    if b == 0x5d && rest.take level == List.replicate level 0x3d && (rest.drop level).head? == some 0x5d then
      some (acc.reverse, rest.drop (level + 1), line)
    else if isNewline b then longBody level (0x0a :: acc) n (line + 1) (dropNewline (b :: rest))
    else longBody level (b :: acc) n line rest

private def longContent (level : Nat) (line : Nat) (s : Bytes) : Option (Bytes × Bytes × Nat) :=
  match s with
  | b :: rest =>
    if isNewline b then longBody level [] (s.length + 1) (line + 1) (dropNewline (b :: rest))
    else longBody level [] (s.length + 1) line s
  | [] => none

/-- UTF-8 bytes of a code point up to 2^31. -/
def utf8 (code : Nat) : Bytes :=
  if code < 0x80 then [UInt8.ofNat code]
  else
    let tail (k : Nat) : UInt8 := UInt8.ofNat (0x80 + code / twoTo (6 * k) % 64)
    if code < 0x800 then [UInt8.ofNat (0xc0 + code / 64), tail 0]
    else if code < 0x10000 then [UInt8.ofNat (0xe0 + code / twoTo 12), tail 1, tail 0]
    else if code < 0x200000 then [UInt8.ofNat (0xf0 + code / twoTo 18), tail 2, tail 1, tail 0]
    else if code < 0x4000000 then
      [UInt8.ofNat (0xf8 + code / twoTo 24), tail 3, tail 2, tail 1, tail 0]
    else [UInt8.ofNat (0xfc + code / twoTo 30), tail 4, tail 3, tail 2, tail 1, tail 0]

/-- What an escape yields: bytes, the rest, the line; or a message and how much was read. -/
inductive Escaped where
  | ok (out rest : Bytes) (line : Nat)
  | bad (message : String) (taken : Nat)

def simpleEscape (b : UInt8) : Option UInt8 :=
  if b == 0x61 then some 7 else if b == 0x62 then some 8 else if b == 0x66 then some 12
  else if b == 0x6e then some 10 else if b == 0x72 then some 13 else if b == 0x74 then some 9
  else if b == 0x76 then some 11 else if b == 0x5c || b == 0x22 || b == 0x27 then some b else none

private def unicodeDigits (s : Bytes) : List Nat := (s.takeWhile fun b => (hexValue b).isSome).filterMap hexValue

/-- The escape after a backslash. -/
def escape (line : Nat) (s : Bytes) : Escaped :=
  match s with
  | [] => .ok [] [] line
  | 0x78 :: rest =>
    match rest with
    | a :: b :: after =>
      match hexValue a, hexValue b with
      | some h, some l => .ok [UInt8.ofNat (16 * h + l)] after line
      | some _, none => .bad "hexadecimal digit expected" 3
      | none, _ => .bad "hexadecimal digit expected" 2
    | _ => .bad "hexadecimal digit expected" (rest.length + 1)
  | 0x75 :: rest =>
    match rest with
    | 0x7b :: after =>
      let digits := unicodeDigits after
      let code := digits.foldl (fun n d => 16 * n + d) 0
      if digits.isEmpty then .bad "hexadecimal digit expected" 3
      else if code ≥ twoTo 31 then .bad "UTF-8 value too large" (2 + digits.length)
      else match after.drop digits.length with
        | 0x7d :: tail => .ok (utf8 code) tail line
        | _ => .bad "missing '\x7d' in \\u\x7bxxxx\x7d" (3 + digits.length)
    | _ => .bad "missing '\x7b' in \\u\x7bxxxx\x7d" 2
  | 0x7a :: rest =>
    let blank := rest.takeWhile isSpace
    let breaks := (blank.filter (· == 0x0a)).length
    .ok [] (rest.drop blank.length) (line + breaks)
  | b :: rest =>
    match simpleEscape b with
    | some c => .ok [c] rest line
    | none =>
      if isNewline b then .ok [0x0a] (dropNewline (b :: rest)) (line + 1)
      else if isDigit b then
        let digits := ((b :: rest).take 3).takeWhile isDigit
        let code := digits.foldl (fun n d => 10 * n + (d.toNat - 0x30)) 0
        if code > 255 then .bad "decimal escape too large" (digits.length + 1)
        else .ok [UInt8.ofNat code] ((b :: rest).drop digits.length) line
      else .bad "invalid escape sequence" 1

/-- A short string from after its quote. `raw` collects what was read, newest first. -/
def shortString (quote : UInt8) (raw acc : Bytes) : Nat → Nat → Bytes →
    Except ParseError (Placed × Bytes)
  | 0, line, _ => .error ⟨"unfinished string", line, some (Bytes.ofString "<eof>")⟩
  | _, line, [] => .error ⟨"unfinished string", line, some (Bytes.ofString "<eof>")⟩
  | n + 1, line, b :: rest =>
    if b == quote then .ok (⟨.text (b :: raw).reverse acc.reverse, line⟩, rest)
    else if isNewline b then .error ⟨"unfinished string", line, some (0x27 :: raw.reverse ++ [0x27])⟩
    else if b == 0x5c then
      match escape line rest with
      | .ok out after line' =>
        let read := rest.take (rest.length - after.length)
        shortString quote (read.reverse ++ b :: raw) (out.reverse ++ acc) n line' after
      | .bad message taken =>
        .error ⟨message, line, some (0x27 :: (raw.reverse ++ b :: rest.take taken) ++ [0x27])⟩
    else shortString quote (b :: raw) (b :: acc) n line rest

/-- The characters of a number, as far as they could belong to one. -/
def numberChars (isHex : Bool) : Bytes → Bytes
  | [] => []
  | [b] => if isWord b || b == 0x2e then [b] else []
  | b :: c :: rest =>
    let isMark := if isHex then b == 0x70 || b == 0x50 else b == 0x65 || b == 0x45
    if isMark && (c == 0x2b || c == 0x2d) then b :: c :: numberChars isHex rest
    else if isWord b || b == 0x2e then b :: numberChars isHex (c :: rest)
    else []

private def asciiChars (b : Bytes) : List Char := b.map fun c => Char.ofNat c.toNat

/-- A number token at the start of `s`. -/
def number (line : Nat) (s : Bytes) : Except ParseError (Placed × Bytes) :=
  let isHex := match s with
    | 0x30 :: x :: _ => x == 0x78 || x == 0x58
    | _ => false
  let raw := numberChars isHex s
  let rest := s.drop raw.length
  match raw.readNumber with
  | some (.int i) => .ok (⟨.int raw i, line⟩, rest)
  | some (.float d) => .ok (⟨.float raw d, line⟩, rest)
  | _ => .error ⟨"malformed number", line, some (0x27 :: raw ++ [0x27])⟩

/-- The next token, from the given line on. -/
def next : Nat → Nat → Bytes → Except ParseError (Placed × Bytes)
  | 0, line, _ => .ok (⟨.eof, line⟩, [])
  | _, line, [] => .ok (⟨.eof, line⟩, [])
  | n + 1, line, b :: rest =>
    if isNewline b then next n (line + 1) (dropNewline (b :: rest))
    else if isSpace b then next n line rest
    else if b == 0x2d && rest.head? == some 0x2d then
      match longOpen rest.tail with
      | some (level, after) =>
        match longContent level line after with
        | some (_, tail, line') => next n line' tail
        | none =>
          let last := line + (after.filter (· == 0x0a)).length
          .error ⟨s!"unfinished long comment (starting at line {line})", last, some (Bytes.ofString "<eof>")⟩
      | none => next n line (rest.dropWhile (!isNewline ·))
    else if b == 0x5b && (longOpen (b :: rest)).isSome then
      match longOpen (b :: rest) with
      | some (level, after) =>
        match longContent level line after with
        | some (value, tail, line') =>
          let raw := (b :: rest).take ((b :: rest).length - tail.length)
          .ok (⟨.text raw value, line'⟩, tail)
        | none =>
          let last := line + (after.filter (· == 0x0a)).length
          .error ⟨s!"unfinished long string (starting at line {line})", last, some (Bytes.ofString "<eof>")⟩
      | none => .ok (⟨.sign "[", line⟩, rest)
    else if b == 0x22 || b == 0x27 then shortString b [b] [] (rest.length + 1) line rest
    else if isDigit b || (b == 0x2e && (rest.head?.map isDigit).getD false) then number line (b :: rest)
    else if isAlpha b then
      let word := (b :: rest).takeWhile isWord
      let s := String.ofList (asciiChars word)
      .ok (⟨if Token.reserved.contains s then .sign s else .name s, line⟩, (b :: rest).drop word.length)
    else
      match longSigns.find? fun s => (s.toUTF8.toList).isPrefixOf (b :: rest) with
      | some s => .ok (⟨.sign s, line⟩, (b :: rest).drop s.length)
      | none =>
        if shortSigns.contains b then .ok (⟨.sign (String.singleton (Char.ofNat b.toNat)), line⟩, rest)
        else .ok (⟨.sign (unknown b), line⟩, rest)
where
  /-- A character that starts no token. -/
  unknown (b : UInt8) : String :=
    if 0x20 ≤ b && b < 0x7f then String.singleton (Char.ofNat b.toNat) else s!"<\\{b.toNat}>"

/-- All tokens up to the end, or up to the first place where there is none; the failure comes with
the tokens before it. -/
def tokens : Nat → Nat → Bytes → List Placed × Option ParseError
  | 0, line, _ => ([⟨.eof, line⟩], none)
  | n + 1, line, s =>
    match next (s.length + 1) line s with
    | .error e => ([], some e)
    | .ok (⟨.eof, line'⟩, _) => ([⟨.eof, line'⟩], none)
    | .ok (t, rest) =>
      let (more, e) := tokens n t.line rest
      (t :: more, e)

end Lexer

end ScriptBridge.Script
