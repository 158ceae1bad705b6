import ScriptBridge.Error
import ScriptBridge.Json.Tree
import ScriptBridge.Number.Power
import ScriptBridge.Text.Blank
import ScriptBridge.Text.Lines

/-!
Reports of failed runs: the phase, the line where it can be told, and the message in three forms.
-/

namespace ScriptBridge

/-- Why a run failed. -/
inductive RunError where
  | script (e : BridgeError)
  | config (message : String)
  | io (path message : String)
deriving DecidableEq, Repr

/-- The first part of a text between colons, after the first colon, that is all digits. -/
def lineOf (message : String) : Option Nat :=
  let parts := (Text.splitOn ':' message.toList).drop 1
  match parts.find? fun part => !part.isEmpty && part.all fun c => '0' ≤ c && c ≤ '9' with
  | some digits =>
    let line := digits.foldl (fun n c => 10 * n + (c.toNat - '0'.toNat)) 0
    if line < twoTo 64 then some line else none
  | none => none

/-- A report by fields. -/
structure Report where
  phase : String
  line : Option Nat
  errorKind : String
  tag : Option String
  message : String
deriving DecidableEq, Repr

namespace RunError

def text : RunError → String
  | .script e => e.text
  | .config message => "Config error: " ++ message
  | .io path message => "IO error: " ++ path ++ ": " ++ message

def phase : RunError → String
  | .script e => match e.tag with
    | some tag => if tag.startsWith "engine.syntax" then "syntax" else "runtime"
    | none => "runtime"
  | .config _ => "config"
  | .io .. => "io"

/-- The line that the message names. -/
def line : RunError → Option Nat
  | .script e => lineOf e.message
  | _ => none

def kind : RunError → Option ErrorKind
  | .script e => some e.kind
  | _ => none

def report (e : RunError) : Report :=
  match e with
  | .script inner => ⟨e.phase, e.line, inner.kind.name, inner.tag, inner.message⟩
  | .config message => ⟨"config", none, "ConfigError", none, message⟩
  | .io path message => ⟨"io", none, "IoError", none, path ++ ": " ++ message⟩

end RunError

namespace Report

def text (r : Report) : String :=
  match r.line with
  | some line => s!"[line {line}] {r.phase} error ({r.errorKind}): {r.message}"
  | none => s!"[{r.phase}] {r.phase} error ({r.errorKind}): {r.message}"

private def tagField (r : Report) : List (String × Json.Tree) :=
  (r.tag.map fun tag => ("tag", Json.Tree.string tag)).toList

private def lineField (r : Report) : Json.Tree := .ofOption (fun line => .int line) r.line

/-- The report as a JSON object; there is no field for a missing tag. -/
def tree (r : Report) : Json.Tree :=
  .object ([("phase", .string r.phase), ("line", r.lineField), ("error_kind", .string r.errorKind)] ++
    r.tagField ++ [("message", .string r.message)])

def json (r : Report) : String := r.tree.text

/-- The report as a JSON object whose fields are sorted by name. -/
def sortedTree (r : Report) : Json.Tree :=
  .object ([("error_kind", .string r.errorKind), ("line", r.lineField),
    ("message", .string r.message), ("phase", .string r.phase)] ++ r.tagField)

/-- A report whose message is in the form in which messages are shown. -/
def cleaned (r : Report) : Report := { r with message := Text.clean r.message }

def short (r : Report) : String :=
  match r.tag with
  | some tag => s!"{r.phase}: {tag}: {r.message}"
  | none => s!"{r.phase}: {r.message}"

end Report

end ScriptBridge
