import ScriptBridge.Text.Lines

/-!
The lines of a source around the one that an error names.
-/

namespace ScriptBridge.Report

/-- How many lines are shown before and after the marked one. -/
def margin : Nat := 3

private def padLeft (width : Nat) (s : String) : String :=
  String.ofList (List.replicate (width - s.length) ' ') ++ s

/-- One row: the mark, the number right-aligned to `width`, the line. -/
def row (width marked number : Nat) (line : String) : String :=
  let mark := if number = marked then ">" else " "
  mark ++ padLeft width (toString number) ++ " | " ++ line ++ "\n"

theorem row_eq (width marked number : Nat) (line : String) :
    row width marked number line = (if number = marked then ">" else " ") ++
      String.ofList (List.replicate (width - (toString number).length) ' ') ++ toString number ++
        " | " ++ line ++ "\n" := by
  simp only [row, padLeft, String.append_assoc]

/-- The rows around line `marked`, counted from one, and a closing row; nothing when there is no
such line. -/
def excerpt (source : String) (marked : Nat) : String :=
  let lines := Text.lines source
  if marked = 0 || lines.length < marked then ""
  else
    let first := max 1 (marked - margin)
    let last := min lines.length (marked + margin)
    let width := (toString last).length
    let rows := (((lines.take last).drop (first - 1)).zipIdx first).map fun (line, number) =>
      row width marked number line
    String.join rows ++ String.ofList (List.replicate (width + 1) ' ') ++ "|--\n"

end ScriptBridge.Report
