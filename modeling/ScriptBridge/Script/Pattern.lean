import ScriptBridge.Script.Token

/-!
Patterns on strings: classes and sets of bytes, repetitions, captures, balanced brackets and borders.
A repetition takes as much as it can, except `-`, which takes as little as it can.
-/

namespace ScriptBridge.Script.Pattern

/-- Part of a string that a pattern has marked: from a place on, for some length once it is closed;
a position has no length. -/
inductive Capture where
  | unfinished (start : Nat)
  | closed (start length : Nat)
  | position (start : Nat)

/-- What is wrong with a pattern. -/
inductive Defect where
  | endsWithEscape
  | missingBracket
  | missingSet
  | missingBalance
  | badCapture (index : Nat)
  | badClose
  | unfinished
  | tooComplex

def Defect.message : Defect → String
  | .endsWithEscape => "malformed pattern (ends with '%')"
  | .missingBracket => "malformed pattern (missing ']')"
  | .missingSet => "missing '[' after '%f' in pattern"
  | .missingBalance => "malformed pattern (missing arguments to '%b')"
  | .badCapture index => s!"invalid capture index %{index} in pattern"
  | .badClose => "invalid pattern capture"
  | .unfinished => "unfinished capture"
  | .tooComplex => "pattern too complex"

private def isLower (b : UInt8) : Bool := 0x61 ≤ b && b ≤ 0x7a

private def isUpper (b : UInt8) : Bool := 0x41 ≤ b && b ≤ 0x5a

private def toLower (b : UInt8) : UInt8 := if isUpper b then b + 0x20 else b

private def isGraph (b : UInt8) : Bool := 0x21 ≤ b && b ≤ 0x7e

private def isAlnum (b : UInt8) : Bool := isLower b || isUpper b || Lexer.isDigit b

/-- Whether a byte belongs to the class of a letter; other escaped bytes stand for themselves. -/
def inClass (b letter : UInt8) : Bool :=
  let named : Option Bool :=
    match Char.ofNat (toLower letter).toNat with
    | 'a' => some (isLower b || isUpper b)
    | 'c' => some (b < 0x20 || b == 0x7f)
    | 'd' => some (Lexer.isDigit b)
    | 'g' => some (isGraph b)
    | 'l' => some (isLower b)
    | 'p' => some (isGraph b && !isAlnum b)
    | 's' => some (Lexer.isSpace b)
    | 'u' => some (isUpper b)
    | 'w' => some (isAlnum b)
    | 'x' => some (Lexer.hexValue b).isSome
    | _ => none
  match named with
  | some found => if isUpper letter then !found else found
  | none => letter == b

/-- The end of a set, from after its `[` and an optional `^` on. -/
private def setEnd (first : Bool) : Bytes → Except Defect Bytes
  | [] => .error .missingBracket
  | b :: rest =>
    if b == 0x5d && !first then .ok rest
    else if b == 0x25 then
      match rest with
      | [] => .error .missingBracket
      | _ :: after => setEnd false after
    else setEnd false rest

/-- What follows the item at the start of a pattern, which is not empty. -/
def itemEnd : Bytes → Except Defect Bytes
  | [] => .ok []
  | 0x25 :: rest =>
    match rest with
    | [] => .error .endsWithEscape
    | _ :: after => .ok after
  | 0x5b :: 0x5e :: rest => setEnd true rest
  | 0x5b :: rest => setEnd true rest
  | _ :: rest => .ok rest

/-- Whether a byte is among the members of a set, which end before its `]`. -/
private def inMembers (b : UInt8) : Bytes → Bool
  | 0x25 :: letter :: rest => inClass b letter || inMembers b rest
  | low :: 0x2d :: high :: rest => (low ≤ b && b ≤ high) || inMembers b rest
  | c :: rest => c == b || inMembers b rest
  | [] => false

/-- Whether a byte matches a set with its brackets. -/
def inSet (b : UInt8) (item : Bytes) : Bool :=
  match (item.drop 1).dropLast with
  | 0x5e :: members => !inMembers b members
  | members => inMembers b members

/-- Whether the byte at a place matches an item. -/
def matchesItem (source : Array UInt8) (s : Nat) (item : Bytes) : Bool :=
  match source[s]?, item with
  | none, _ => false
  | some _, [0x2e] => true
  | some b, [0x25, letter] => inClass b letter
  | some b, 0x5b :: _ => inSet b item
  | some b, c :: _ => b == c
  | some _, [] => false

/-- How many bytes from a place on match an item. -/
private def runLength (source : Array UInt8) (s : Nat) (item : Bytes) : Nat :=
  ((List.range (source.size - s)).takeWhile fun k => matchesItem source (s + k) item).length

/-- The end of a balanced part that starts at a place. -/
private def balancedEnd (source : Array UInt8) (opening closing : UInt8) :
    Nat → Nat → Nat → Option Nat
  | 0, _, _ => none
  | n + 1, depth, s =>
    match source[s]? with
    | none => none
    | some b =>
      if b == closing then
        (if depth = 1 then some (s + 1) else balancedEnd source opening closing n (depth - 1) (s + 1))
      else balancedEnd source opening closing n (if b == opening then depth + 1 else depth) (s + 1)

/-- Closes the last capture that is open. -/
private def closeLast (s : Nat) : List Capture → Option (List Capture)
  | [] => none
  | .unfinished start :: rest => some (.closed start (s - start) :: rest)
  | c :: rest => (closeLast s rest).map (c :: ·)

abbrev Found := Option (Nat × List Capture)

/-- The first success among some attempts. -/
private def firstOf (attempts : List Nat) (attempt : Nat → Except Defect Found) :
    Except Defect Found :=
  match attempts with
  | [] => .ok none
  | k :: rest => do
    match ← attempt k with
    | some found => pure (some found)
    | none => firstOf rest attempt

/-- Matches a pattern at a place; captures come newest first. -/
def matchAt (source : Array UInt8) : Nat → Nat → Bytes → List Capture → Except Defect Found
  | 0, _, _, _ => .error .tooComplex
  | n + 1, s, pattern, captures =>
    match pattern with
    | [] => .ok (some (s, captures))
    | 0x28 :: 0x29 :: rest => matchAt source n s rest (.position s :: captures)
    | 0x28 :: rest => matchAt source n s rest (.unfinished s :: captures)
    | 0x29 :: rest =>
      match closeLast s captures with
      | some captures => matchAt source n s rest captures
      | none => .error .badClose
    | [0x24] => .ok (if s = source.size then some (s, captures) else none)
    | 0x25 :: 0x62 :: rest =>
      match rest with
      | opening :: closing :: after =>
        if source[s]? == some opening then
          match balancedEnd source opening closing (source.size + 1) 1 (s + 1) with
          | some e => matchAt source n e after captures
          | none => .ok none
        else .ok none
      | _ => .error .missingBalance
    | 0x25 :: 0x66 :: rest =>
      match rest with
      | 0x5b :: _ => do
        let after ← itemEnd rest
        let set := rest.take (rest.length - after.length)
        let before := if s = 0 then 0 else source.getD (s - 1) 0
        if !inSet before set && inSet (source.getD s 0) set then matchAt source n s after captures
        else pure none
      | _ => .error .missingSet
    | 0x25 :: d :: rest =>
      if Lexer.isDigit d then
        let index := d.toNat - 0x30
        match captures.reverse[index - 1]? with
        | some (.closed start length) =>
          if index ≥ 1 && s + length ≤ source.size &&
              (source.extract start (start + length)) == (source.extract s (s + length)) then
            matchAt source n (s + length) rest captures
          else if index ≥ 1 then .ok none
          else .error (.badCapture index)
        | _ => .error (.badCapture index)
      else item n s (0x25 :: d :: rest) captures
    | pattern => item n s pattern captures
where
  /-- Matches an item with its repetition, and what follows. -/
  item (n s : Nat) (pattern : Bytes) (captures : List Capture) : Except Defect Found := do
    let after ← itemEnd pattern
    let one := pattern.take (pattern.length - after.length)
    match after with
    | 0x3f :: rest =>
      firstOf (if matchesItem source s one then [1, 0] else [0]) fun k =>
        matchAt source n (s + k) rest captures
    | 0x2b :: rest =>
      firstOf ((List.range (runLength source s one)).reverse.map (· + 1)) fun k =>
        matchAt source n (s + k) rest captures
    | 0x2a :: rest =>
      firstOf (List.range (runLength source s one + 1)).reverse fun k =>
        matchAt source n (s + k) rest captures
    | 0x2d :: rest =>
      firstOf (List.range (runLength source s one + 1)) fun k =>
        matchAt source n (s + k) rest captures
    | rest =>
      if matchesItem source s one then matchAt source n (s + 1) rest captures else pure none

/-- What a capture has marked. -/
def Capture.datum (source : Array UInt8) : Capture → Except Defect Datum
  | .unfinished _ => .error .unfinished
  | .closed start length => .ok (.text (source.extract start (start + length)).toList)
  | .position start => .ok (.int (Int64.ofNat (start + 1)))

/-- The first match from one of some places on. -/
def search (source : Array UInt8) (pattern : Bytes) :
    List Nat → Except Defect (Option (Nat × Nat × List Capture))
  | [] => .ok none
  | s :: rest => do
    match ← matchAt source (pattern.length + 1) s pattern [] with
    | some (e, captures) => pure (some (s, e, captures))
    | none => search source pattern rest

/-- The captures of the first match from a place on, or the whole match if there are none. -/
def find (source pattern : Bytes) (start : Nat) : Except Defect (Option (List Datum)) := do
  let text := source.toArray
  let (pattern, places) := match pattern with
    | 0x5e :: rest => (rest, [start])
    | pattern => (pattern, (List.range (text.size + 1)).drop start)
  match ← search text pattern places with
  | none => pure none
  | some (s, e, captures) =>
    if captures.isEmpty then pure (some [.text (text.extract s e).toList])
    else some <$> captures.reverse.mapM (Capture.datum text)

end ScriptBridge.Script.Pattern
