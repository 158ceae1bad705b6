/-!
Texts by lines: a line ends at a line feed, and a carriage return before it belongs to the end.
-/

namespace ScriptBridge.Text

/-- The pieces between line feeds. -/
def pieces : List Char → List (List Char)
  | [] => [[]]
  | c :: rest =>
    match pieces rest with
    | [] => [[c]]
    | piece :: others => if c = '\n' then [] :: piece :: others else (c :: piece) :: others

def dropReturn (line : List Char) : List Char :=
  match line.reverse with
  | '\r' :: rest => rest.reverse
  | _ => line

/-- The lines of a text; a line feed at the very end opens no further line. -/
def lines (s : String) : List String :=
  let all := pieces s.toList
  let closed := (all.take (all.length - 1)).map dropReturn
  let last := all.getLast?.getD []
  (closed ++ (if last.isEmpty then [] else [last])).map String.ofList

/-- A text without the script stacks in it: a heading line and the indented lines right after it. -/
def dropTraces (s : String) : String :=
  let rec keep (inside : Bool) : List (List Char) → List (List Char)
    | [] => []
    | line :: rest =>
      if line = "stack traceback:".toList then keep true rest
      else if inside && line.head? = some '\t' then keep true rest
      else line :: keep false rest
  String.ofList ("\n".toList.intercalate (keep false (pieces s.toList)))

private def isHex (c : Char) : Bool :=
  c.isDigit || ('a' ≤ c && c ≤ 'f') || ('A' ≤ c && c ≤ 'F')

/-- A text whose addresses, eight or more hexadecimal digits after `: 0x`, are hidden. -/
def hideAddresses (s : String) : String :=
  let rec hide (fuel : Nat) (s : List Char) : List Char :=
    match fuel, s with
    | 0, s => s
    | _, [] => []
    | n + 1, ':' :: ' ' :: '0' :: 'x' :: rest =>
      if (rest.takeWhile isHex).length ≥ 8 then ": <addr>".toList ++ hide n (rest.dropWhile isHex)
      else ':' :: hide n (' ' :: '0' :: 'x' :: rest)
    | n + 1, c :: rest => c :: hide n rest
  String.ofList (hide (s.length + 1) s.toList)

/-- The form in which messages are shown. -/
def clean (s : String) : String := hideAddresses (dropTraces s)

end ScriptBridge.Text
