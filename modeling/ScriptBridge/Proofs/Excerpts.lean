import Mathlib.Data.List.Forall2
import ScriptBridge.Proofs.Signatures
import ScriptBridge.Report.Excerpt

/-!
Excerpts of sources: the lines of a text, which of them are shown around a marked one, and how their
rows are aligned.
-/

namespace ScriptBridge

namespace Text

/-- How a text is made of lines: each of them ends with a line feed, or with a carriage return and a line
feed, but the last one may have no end and is not empty then. -/
inductive Lined : List Char → List (List Char) → Prop where
  | nothing : Lined [] []
  | unended {line : List Char} (nonempty : line ≠ []) (single : '\n' ∉ line) : Lined line [line]
  | feed {line rest : List Char} {others : List (List Char)} (single : '\n' ∉ line)
      (plain : line.getLast? ≠ some '\r') (further : Lined rest others) :
      Lined (line ++ '\n' :: rest) (line :: others)
  | returnFeed {line rest : List Char} {others : List (List Char)} (single : '\n' ∉ line)
      (further : Lined rest others) : Lined (line ++ '\r' :: '\n' :: rest) (line :: others)

theorem Lined.length_le {s : List Char} {parts : List (List Char)} (lined : Lined s parts) :
    parts.length ≤ s.length := by
  induction lined with
  | nothing => exact Nat.le_refl _
  | unended nonempty => exact List.length_pos_iff.mpr nonempty
  | feed =>
    simp only [List.length_append, List.length_cons]
    omega
  | returnFeed =>
    simp only [List.length_append, List.length_cons]
    omega

theorem pieces_eq (s : List Char) : pieces s = s.splitOn '\n' := by
  rw [← splitOn_eq]
  induction s with
  | nil => rfl
  | cons c rest ih =>
    rw [pieces, ih]
    rfl

/-- The lines that the pieces between line feeds are; what follows the last feed is one unless it is empty,
and keeps a carriage return at its end. -/
def ended : List (List Char) → List (List Char)
  | [] => []
  | [last] => if last.isEmpty then [] else [last]
  | line :: next :: others => dropReturn line :: ended (next :: others)

theorem toList_lines (s : String) :
    (lines s).map String.toList = ended (s.toList.splitOn '\n') := by
  have each (all : List (List Char)) :
      (all.take (all.length - 1)).map dropReturn ++
          (if (all.getLast?.getD []).isEmpty then [] else [all.getLast?.getD []]) = ended all := by
    fun_induction ended all with
    | case1 => rfl
    | case2 last nothing => simp [nothing]
    | case3 last something => simp [something]
    | case4 line next others ih => simpa using ih
  rw [← each, ← pieces_eq]
  simp [lines, Function.comp_def]

theorem dropReturn_concat (line : List Char) : dropReturn (line ++ ['\r']) = line := by
  simp [dropReturn]

theorem dropReturn_of_plain {line : List Char} (plain : line.getLast? ≠ some '\r') :
    dropReturn line = line := by
  unfold dropReturn
  split
  · rename_i rest reversed
    rw [← List.head?_reverse, reversed] at plain
    exact absurd rfl plain
  · rfl

/-- A line feed ends the first line. -/
theorem ended_append {line : List Char} (single : '\n' ∉ line) (rest : List Char) :
    ended ((line ++ '\n' :: rest).splitOn '\n') = dropReturn line :: ended (rest.splitOn '\n') := by
  rw [List.splitOn_append_cons_self, List.splitOn_eq_singleton single]
  cases parts : rest.splitOn '\n' with
  | nil => exact absurd parts (List.splitOn_ne_nil _ _)
  | cons part parts => rfl

theorem lined_ended (s : List Char) : Lined s (ended (s.splitOn '\n')) := by
  -- What follows the first line feed is shorter.
  induction size : s.length using Nat.strongRecOn generalizing s with
  | _ n ih =>
    by_cases feed : '\n' ∈ s
    · obtain ⟨line, rest, rfl, single⟩ := List.eq_append_cons_of_mem feed
      have shorter : rest.length < n := by
        rw [← size, List.length_append, List.length_cons]
        omega
      have further := ih _ shorter rest rfl
      rw [ended_append single]
      by_cases returns : line.getLast? = some '\r'
      · obtain ⟨line, rfl⟩ := List.getLast?_eq_some_iff.mp returns
        rw [dropReturn_concat, List.append_assoc]
        exact .returnFeed (fun member => single (List.mem_append_left _ member)) further
      · rw [dropReturn_of_plain returns]
        exact .feed single returns further
    · rw [List.splitOn_eq_singleton feed]
      cases s with
      | nil => exact .nothing
      | cons c s => exact .unended nofun feed

/-- A text is made of its lines, and of no others. -/
theorem lined_iff {s : String} {parts : List (List Char)} :
    Lined s.toList parts ↔ parts = (lines s).map String.toList := by
  rw [toList_lines]
  refine ⟨fun lined => ?_, fun same => same ▸ lined_ended _⟩
  generalize s.toList = s at lined
  induction lined with
  | nothing => rfl
  | unended nonempty single =>
    rw [List.splitOn_eq_singleton single, ended, if_neg (by simpa using nonempty)]
  | feed single plain further ih => rw [ended_append single, dropReturn_of_plain plain, ih]
  | @returnFeed line rest others single further ih =>
    have single' : '\n' ∉ line ++ ['\r'] := by simpa using single
    have ends := ended_append single' rest
    rw [dropReturn_concat, List.append_assoc] at ends
    rw [ih]
    exact ends.symm

end Text

namespace Report

/-- A row tells a line of the source: after the mark its number ends in the same column as in all other
rows of that width, then the separator and the line follow. -/
def Tells (width marked number : Nat) (line text : String) : Prop :=
  ∃ blanks : String, (∀ c ∈ blanks.toList, c = ' ') ∧ (blanks ++ toString number).length = width ∧
    text = (if number = marked then ">" else " ") ++ blanks ++ toString number ++ " | " ++ line ++ "\n"

theorem tells_row {width number : Nat} (fits : (toString number).length ≤ width) (marked : Nat)
    (line : String) : Tells width marked number line (row width marked number line) := by
  refine ⟨String.ofList (List.replicate (width - (toString number).length) ' '), ?_, ?_,
    row_eq width marked number line⟩
  · intro c member
    rw [String.toList_ofList] at member
    exact List.eq_of_mem_replicate member
  · rw [String.length_append, String.length_ofList, List.length_replicate]
    omega

/-- A greater number has no fewer digits. -/
theorem length_toString_le {n m : Nat} (le : n ≤ m) : (toString n).length ≤ (toString m).length := by
  have length (k : Nat) : (toString k).length = (Nat.toDigits 10 k).length := by
    rw [← String.length_toList]
    exact congrArg List.length Nat.toList_repr
  have bound : m < 10 ^ (Nat.toDigits 10 m).length :=
    (Nat.length_toDigits_le_iff (by decide) Nat.length_toDigits_pos).mp (Nat.le_refl _)
  rw [length, length]
  exact (Nat.length_toDigits_le_iff (by decide) Nat.length_toDigits_pos).mpr
    (Nat.lt_of_le_of_lt le bound)

/-- To cut a stretch out of some lines and number it is to look each line up by its number. -/
theorem forall₂_numbered {lines : List String} {first last : Nat} (one : 1 ≤ first)
    (inside : last ≤ lines.length) :
    List.Forall₂ (fun number shown => shown.2 = number ∧ 1 ≤ number ∧ number ≤ last ∧
        lines[number - 1]? = some shown.1)
      (List.range' first (last + 1 - first))
      (((lines.take last).drop (first - 1)).zipIdx first) := by
  -- Without a first line the range would have one number more than there are lines.
  rw [List.forall₂_iff_get]
  constructor
  · simp only [List.length_range', List.length_zipIdx, List.length_drop, List.length_take]
    omega
  · intro i inRange inLines
    simp only [List.length_range'] at inRange
    have place : first + i - 1 = first - 1 + i := by omega
    have there : first - 1 + i < lines.length := by omega
    simp [place, there]
    omega

/-- An excerpt is empty exactly if the source has no line of that number. Otherwise it has a row for each
line from the third before the marked one to the third after it, as far as there are such lines, and a
closing row; all lines that are looked up are there. The number of the marked line is not above that of
the characters, so to add three to it stays within a machine word. -/
theorem excerpt_law (source : String) (marked : Nat) :
    let lines := Text.lines source
    let first := max 1 (marked - 3)
    let last := min lines.length (marked + 3)
    let width := (toString last).length
    (∀ parts, Text.Lined source.toList parts ↔ parts = lines.map String.toList) ∧
    (excerpt source marked = "" ↔ marked = 0 ∨ lines.length < marked) ∧
    (1 ≤ marked → marked ≤ lines.length → marked ≤ source.length ∧ first ≤ marked ∧ marked ≤ last ∧
      ∃ rows, excerpt source marked =
          String.join rows ++ String.ofList (List.replicate (width + 1) ' ') ++ "|--\n" ∧
        List.Forall₂ (fun number text => 1 ≤ number ∧
            ∃ line, lines[number - 1]? = some line ∧ Tells width marked number line text)
          (List.range' first (last + 1 - first)) rows) := by
  intro lines first last width
  have closing (rows : List String) :
      String.join rows ++ String.ofList (List.replicate (width + 1) ' ') ++ "|--\n" ≠ "" := by
    simp
  have shape : excerpt source marked = if marked = 0 ∨ lines.length < marked then "" else
      String.join ((((lines.take last).drop (first - 1)).zipIdx first).map fun shown =>
        row width marked shown.2 shown.1) ++
          String.ofList (List.replicate (width + 1) ' ') ++ "|--\n" := by
    simp [excerpt, lines, first, last, width, margin]
  refine ⟨fun parts => Text.lined_iff, ?_, fun positive there => ?_⟩
  · rw [shape]
    by_cases missing : marked = 0 ∨ lines.length < marked
    · simp [missing]
    · rw [if_neg missing]
      exact iff_of_false (closing _) missing
  · have few : lines.length ≤ source.length := by
      have shorter := (Text.lined_iff.mpr rfl : Text.Lined source.toList _).length_le
      rwa [List.length_map, String.length_toList] at shorter
    refine ⟨Nat.le_trans there few, by omega, by omega, _, shape.trans (if_neg (by omega)), ?_⟩
    rw [List.forall₂_map_right_iff]
    refine (forall₂_numbered (by omega) (by omega)).imp fun number shown found => ?_
    obtain ⟨rfl, positive, inside, line⟩ := found
    exact ⟨positive, _, line, tells_row (length_toString_le inside) marked _⟩

/-- Ten lines, of which two end with a carriage return too, and the last one has no end. -/
def tenLines : String := "a\r\nb\nc\nd\ne\nf\ng\nh\ni\r\nj"

/-- A row with a number of two digits moves the numbers of one digit to the right. -/
theorem excerpt_law_tenLines :
    excerpt tenLines 9 = "  6 | f\n  7 | g\n  8 | h\n> 9 | i\n 10 | j\n   |--\n" ∧
    ∃ rows, excerpt tenLines 9 = String.join rows ++ "   |--\n" ∧
      List.Forall₂ (fun number text => 1 ≤ number ∧ ∃ line,
          ["a", "b", "c", "d", "e", "f", "g", "h", "i", "j"][number - 1]? = some line ∧
            Tells 2 9 number line text) [6, 7, 8, 9, 10] rows := by
  have lines : Text.lines tenLines = ["a", "b", "c", "d", "e", "f", "g", "h", "i", "j"] := by
    decide +kernel
  obtain ⟨-, -, shown⟩ := excerpt_law tenLines 9
  rw [lines] at shown
  obtain ⟨-, -, -, rows, same, each⟩ := shown (by decide) (by decide)
  refine ⟨by decide +kernel, rows, same.trans ?_, each⟩
  rw [String.append_assoc]
  rfl

end Report

end ScriptBridge
