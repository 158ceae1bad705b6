import ScriptBridge.CommandLine

/-!
The command itself: it reads the files that its arguments name, does what they ask for, and prints
the result.
-/

namespace ScriptBridge

/-- Why a file cannot be read, in the words of the operating system. -/
private def readFailure : IO.Error → String
  | .noFileOrDirectory .. => "No such file or directory (os error 2)"
  | .permissionDenied .. => "Permission denied (os error 13)"
  | .inappropriateType .. => "Is a directory (os error 21)"
  | e => toString e

/-- The text of a file, or why there is none. -/
private def readText (path : String) : IO (Except String String) := do
  try
    match String.fromUTF8? (← IO.FS.readBinFile path) with
    | some text => return .ok text
    | none => return .error "stream did not contain valid UTF-8"
  catch e => return .error (readFailure e)

private def readAll (paths : List String) : IO (List (String × Except String String)) :=
  paths.mapM fun path => do return (path, ← readText path)

/-- What a list of read files says of a path. -/
private def lookUp (texts : List (String × Except String String)) (path : String) :
    Except String String :=
  ((texts.find? (·.1 == path)).map (·.2)).getD (.error "file not read")

end ScriptBridge

open ScriptBridge in
def main (args : List String) : IO UInt32 := do
  let texts ← ScriptBridge.readAll (CommandLine.filesOf args)
  let printed := CommandLine.run args (ScriptBridge.lookUp texts)
  IO.print printed.output
  IO.eprint printed.errors
  return UInt32.ofNat printed.exitCode
