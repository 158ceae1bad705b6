import ScriptBridge.Text.Blank

/-!
Log levels by subsystem: a global level from the verbosity, and settings `subsystem=level` over it.
-/

namespace ScriptBridge

inductive LogLevel where
  | error
  | warn
  | info
  | debug
  | trace
deriving DecidableEq, Repr

namespace LogLevel

def all : List LogLevel := [.error, .warn, .info, .debug, .trace]

def name : LogLevel → String
  | .error => "error"
  | .warn => "warn"
  | .info => "info"
  | .debug => "debug"
  | .trace => "trace"

def title : LogLevel → String
  | .error => "ERROR"
  | .warn => "WARN"
  | .info => "INFO"
  | .debug => "DEBUG"
  | .trace => "TRACE"

private def lower (c : Char) : Char :=
  if 'A' ≤ c ∧ c ≤ 'Z' then Char.ofNat (c.toNat + 32) else c

/-- A number from 1 to 5, which may have a plus and zeros in front. -/
private def ofNumber? (s : List Char) : Option LogLevel :=
  let digits := match s with
    | '+' :: rest => rest
    | s => s
  if digits.isEmpty || !digits.all fun c => '0' ≤ c && c ≤ '9' then none
  else match digits.foldl (fun n c => 10 * n + (c.toNat - '0'.toNat)) 0 with
    | 0 => none
    | n + 1 => all[n]?

/-- A level by its name in any case, or by its number. -/
def ofText? (s : String) : Option LogLevel :=
  match ofNumber? s.toList with
  | some level => some level
  | none => all.find? fun level => level.name == String.ofList (s.toList.map lower)

/-- The global level for a count of `-v`. -/
def ofVerbosity : Nat → LogLevel
  | 0 => .warn
  | 1 => .info
  | 2 => .debug
  | _ => .trace

end LogLevel

inductive Subsystem where
  | state
  | value
  | native
  | reflect
  | coroutine
  | registry
deriving DecidableEq, Repr

namespace Subsystem

def all : List Subsystem := [.state, .value, .native, .reflect, .coroutine, .registry]

def name : Subsystem → String
  | .state => "state"
  | .value => "value"
  | .native => "native"
  | .reflect => "reflect"
  | .coroutine => "coroutine"
  | .registry => "registry"

/-- The name under which the subsystem writes its log. -/
def target (s : Subsystem) : String := "moonbridge::" ++ s.name

end Subsystem

/-- A global level and the levels set for single subsystems. -/
structure LogConfig where
  global : LogLevel
  specific : Subsystem → Option LogLevel := fun _ => none

namespace LogConfig

def levelFor (c : LogConfig) (s : Subsystem) : LogLevel := (c.specific s).getD c.global

def set (c : LogConfig) (s : Subsystem) (level : LogLevel) : LogConfig :=
  { c with specific := fun other => if other = s then some level else c.specific other }

/-- The levels by log target; the command line itself logs at the global level. -/
def targets (c : LogConfig) : List (String × LogLevel) :=
  ("moonbridge::cli", c.global) :: Subsystem.all.map fun s => (s.target, c.levelFor s)

/-- A setting `subsystem=level`, or what is wrong with it. -/
def parseSetting (s : String) : Except String (Subsystem × LogLevel) :=
  match Text.splitOnce '=' s.toList with
  | none => .error s!"expected SUBSYSTEM=LEVEL, got '{s}'"
  | some (name, level) =>
    match Subsystem.all.find? (·.name == String.ofList name) with
    | none => .error s!"unknown subsystem '{String.ofList name}'"
    | some subsystem =>
      match LogLevel.ofText? (String.ofList level) with
      | none => .error s!"unknown log level '{String.ofList level}'"
      | some level => .ok (subsystem, level)

end LogConfig

end ScriptBridge
