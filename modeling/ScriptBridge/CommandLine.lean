import ScriptBridge.Config.Reader
import ScriptBridge.Execution
import ScriptBridge.LogLevel
import ScriptBridge.Report.Excerpt

/-!
The command line: what its arguments ask for, and what it prints for a run. Every option may be
given once, except those that count or collect. A value follows its option as the next argument or
in the same one; the next argument is no value if it looks like an option.
-/

namespace ScriptBridge.CommandLine

inductive LogFormat where
  | pretty
  | compact
  | json
deriving DecidableEq, Repr

namespace LogFormat

def ofName? : String → Option LogFormat
  | "pretty" => some .pretty
  | "compact" => some .compact
  | "json" => some .json
  | _ => none

end LogFormat

/-- What the arguments say. -/
structure Arguments where
  script : Option String := none
  inlineCode : Option String := none
  configFile : Option String := none
  verbosity : Nat := 0
  logFormat : Option LogFormat := none
  logLevels : List (Subsystem × LogLevel) := []
  showReturns : Bool := false
  collect : Bool := false
  jsonErrors : Bool := false

/-- What the arguments ask for. -/
inductive Request where
  | run (a : Arguments)
  | version
  | help (isLong : Bool)
  | misuse (message : String)

/-- The options that take a value. -/
inductive ValueOption where
  | eval
  | config
  | logFormat
  | log
deriving DecidableEq

/-- The options without a value. -/
inductive Flag where
  | verbose
  | showReturns
  | gc
  | jsonErrors
  | help (isLong : Bool)
  | version
deriving DecidableEq

private def duplicate (name : String) : String :=
  s!"the argument '{name}' cannot be used multiple times"

private def once (slot : Option String) (name value : String) : Except String (Option String) :=
  if slot.isSome then .error (duplicate name) else .ok (some value)

namespace Arguments

/-- The arguments with the value of an option. -/
def setValue (a : Arguments) (o : ValueOption) (value : String) : Except String Arguments :=
  match o with
  | .eval => do return { a with inlineCode := ← once a.inlineCode "--eval <CODE>" value }
  | .config =>
    if value.isEmpty then .error "a value is required for '--config <FILE>' but none was supplied"
    else do return { a with configFile := ← once a.configFile "--config <FILE>" value }
  | .logFormat =>
    match LogFormat.ofName? value with
    | none => .error s!"invalid value '{value}' for '--log-format <LOG_FORMAT>'"
    | some format =>
      if a.logFormat.isSome then .error (duplicate "--log-format <LOG_FORMAT>")
      else .ok { a with logFormat := some format }
  | .log =>
    match LogConfig.parseSetting value with
    | .ok setting => .ok { a with logLevels := a.logLevels ++ [setting] }
    | .error e => .error s!"invalid value '{value}' for '--log <SUBSYSTEM=LEVEL>': {e}"

/-- The arguments with a flag; nothing for the flags that ask for a text. -/
def setFlag (a : Arguments) (flag : Flag) : Except Request Arguments :=
  match flag with
  | .verbose => .ok { a with verbosity := a.verbosity + 1 }
  | .showReturns =>
    if a.showReturns then .error (.misuse (duplicate "--show-returns"))
    else .ok { a with showReturns := true }
  | .gc =>
    if a.collect then .error (.misuse (duplicate "--gc")) else .ok { a with collect := true }
  | .jsonErrors =>
    if a.jsonErrors then .error (.misuse (duplicate "--json-errors"))
    else .ok { a with jsonErrors := true }
  | .help isLong => .error (.help isLong)
  | .version => .error .version

def setScript (a : Arguments) (path : String) : Except Request Arguments :=
  if path.isEmpty then .error (.misuse "a value is required for '[SCRIPT]' but none was supplied")
  else if a.script.isSome then .error (.misuse s!"unexpected argument '{path}' found")
  else .ok { a with script := some path }

end Arguments

private def longValue? : String → Option ValueOption
  | "eval" => some .eval
  | "config" => some .config
  | "log-format" => some .logFormat
  | "log" => some .log
  | _ => none

private def longFlag? : String → Option Flag
  | "verbose" => some .verbose
  | "show-returns" => some .showReturns
  | "gc" => some .gc
  | "json-errors" => some .jsonErrors
  | "help" => some (.help true)
  | "version" => some .version
  | _ => none

private def shortValue? : Char → Option ValueOption
  | 'e' => some .eval
  | 'c' => some .config
  | _ => none

private def shortFlag? : Char → Option Flag
  | 'v' => some .verbose
  | 'h' => some (.help false)
  | 'V' => some .version
  | _ => none

/-- Whether an argument looks like an option. -/
private def looksLikeOption (s : String) : Bool :=
  match s.toList with
  | '-' :: _ :: _ => true
  | _ => false

/-- How the reading of one argument ends. -/
private inductive Reading where
  | read (a : Arguments)
  /-- The next argument is the value of an option. -/
  | awaits (a : Arguments) (o : ValueOption)
  | stop (r : Request)

private def readValue (a : Arguments) (o : ValueOption) (value : String) : Reading :=
  match a.setValue o value with
  | .ok a => .read a
  | .error message => .stop (.misuse message)

private def readLong (a : Arguments) (body : List Char) : Reading :=
  let (name, value) := match Text.splitOnce '=' body with
    | some (name, value) => (String.ofList name, some (String.ofList value))
    | none => (String.ofList body, none)
  match longValue? name, longFlag? name with
  | some o, _ =>
    match value with
    | some v => readValue a o v
    | none => .awaits a o
  | none, some flag =>
    if value.isSome then .stop (.misuse s!"unexpected value for '--{name}' found")
    else match a.setFlag flag with
      | .ok a => .read a
      | .error r => .stop r
  | none, none => .stop (.misuse s!"unexpected argument '--{name}' found")

private def readShort (a : Arguments) : List Char → Reading
  | [] => .read a
  | c :: rest =>
    match shortValue? c, shortFlag? c with
    | some o, _ =>
      match rest with
      | [] => .awaits a o
      | '=' :: value => readValue a o (String.ofList value)
      | value => readValue a o (String.ofList value)
    | none, some flag =>
      match a.setFlag flag with
      | .ok a => readShort a rest
      | .error r => .stop r
    | none, none => .stop (.misuse s!"unexpected argument '-{c}' found")

private def readScripts (a : Arguments) : List String → Except Request Arguments
  | [] => .ok a
  | path :: rest => do readScripts (← a.setScript path) rest

/-- Reads arguments; `pending` waits for its value. -/
private def readAll (a : Arguments) (pending : Option ValueOption) :
    List String → Except Request Arguments
  | [] => if pending.isSome then .error (.misuse "a value is required but none was supplied") else .ok a
  | s :: rest =>
    match pending with
    | some o =>
      if looksLikeOption s then .error (.misuse "a value is required but none was supplied")
      else match readValue a o s with
        | .read a => readAll a none rest
        | .awaits a o => readAll a (some o) rest
        | .stop r => .error r
    | none =>
      let reading := match s.toList with
        | ['-', '-'] => none
        | '-' :: '-' :: body => some (readLong a body)
        | '-' :: c :: body => some (readShort a (c :: body))
        | _ => some (match a.setScript s with
          | .ok a => .read a
          | .error r => .stop r)
      match reading with
      | none => readScripts a rest
      | some (.read a) => readAll a none rest
      | some (.awaits a o) => readAll a (some o) rest
      | some (.stop r) => .error r

/-- Either a script file or inline code has to be given. -/
private def checked (a : Arguments) : Request :=
  match a.script, a.inlineCode with
  | some _, some _ =>
    .misuse "the argument '[SCRIPT]' cannot be used with '--eval <CODE>'"
  | none, none => .misuse "the following required arguments were not provided: <SCRIPT>"
  | _, _ => .run a

/-- What a list of arguments asks for. -/
def parse (args : List String) : Request :=
  match readAll {} none args with
  | .ok a => checked a
  | .error r => r

def versionText : String := "moonbridge 0.1.0\n"

private def heading : String :=
  "Run Lua scripts against the Moonbridge native-object bridge\n\n" ++
  "Usage: moonbridge [OPTIONS] [SCRIPT]\n\n"

private def shortHelp : String :=
  heading ++
  "Arguments:\n" ++
  "  [SCRIPT]  Script file to execute\n\n" ++
  "Options:\n" ++
  "  -e, --eval <CODE>              Execute an inline chunk instead of a file\n" ++
  "  -c, --config <FILE>            Bridge configuration file (JSON)\n" ++
  "  -v, --verbose...               Increase log verbosity (-v info, -vv debug, -vvv trace)\n" ++
  "      --log-format <LOG_FORMAT>  Log output format [default: compact] " ++
    "[possible values: pretty, compact, json]\n" ++
  "      --log <SUBSYSTEM=LEVEL>    Per-subsystem log level, e.g. `--log reflect=trace`\n" ++
  "      --show-returns             Print the values returned by the chunk\n" ++
  "      --gc                       Run a full garbage collection after execution\n" ++
  "      --json-errors              Report errors as JSON on stderr\n" ++
  "  -h, --help                     Print help (see more with '--help')\n" ++
  "  -V, --version                  Print version\n"

private def longHelp : String :=
  heading ++
  "Arguments:\n" ++
  "  [SCRIPT]\n          Script file to execute\n\n" ++
  "Options:\n" ++
  "  -e, --eval <CODE>\n          Execute an inline chunk instead of a file\n\n" ++
  "  -c, --config <FILE>\n          Bridge configuration file (JSON)\n\n" ++
  "  -v, --verbose...\n" ++
  "          Increase log verbosity (-v info, -vv debug, -vvv trace)\n\n" ++
  "      --log-format <LOG_FORMAT>\n          Log output format\n          \n" ++
  "          [default: compact]\n\n" ++
  "          Possible values:\n" ++
  "          - pretty:  彩色格式化（开发使用）\n" ++
  "          - compact: 紧凑格式\n" ++
  "          - json:    JSON 格式（工具集成）\n\n" ++
  "      --log <SUBSYSTEM=LEVEL>\n" ++
  "          Per-subsystem log level, e.g. `--log reflect=trace`\n\n" ++
  "      --show-returns\n          Print the values returned by the chunk\n\n" ++
  "      --gc\n          Run a full garbage collection after execution\n\n" ++
  "      --json-errors\n          Report errors as JSON on stderr\n\n" ++
  "  -h, --help\n          Print help (see a summary with '-h')\n\n" ++
  "  -V, --version\n          Print version\n"

def helpText (isLong : Bool) : String := if isLong then longHelp else shortHelp

/-- What the command prints, and its exit code. -/
structure Printed where
  exitCode : Nat := 0
  output : String := ""
  errors : String := ""

/-- A failed run: its report, and the source around the line where there is one. -/
private def failure (a : Arguments) (show_ : String → String) (e : RunError)
    (source : Option String) : String :=
  let report := { e.report with message := show_ e.report.message }
  if a.jsonErrors then report.sortedTree.text ++ "\n"
  else
    let context := match e.line, source with
      | some line, some source => "\n" ++ Report.excerpt source line
      | _, _ => ""
    "❌ " ++ report.text ++ "\n" ++ context

/-- The texts of files, or why they cannot be read. -/
abbrev Files := String → Except String String

private def fileError (path : String) (e : String) : RunError := .io path e

/-- The configuration of a run. -/
private def configuration (a : Arguments) (files : Files) : Except RunError RunConfig := do
  let bridge ← match a.configFile with
    | none => pure {}
    | some path => do
      let text ← (files path).mapError (fileError path)
      (Config.parse text).mapError .config
  pure { bridge := bridge, showReturns := a.showReturns, collectAfterRun := a.collect }

private def printedLines (lines : List String) : String :=
  String.join (lines.map (· ++ "\n"))

private def runSource (c : RunConfig) (a : Arguments) (files : Files) : RunResult :=
  match a.script with
  | some path =>
    match files path with
    | .ok source => .of {} (c.runNamed ("@" ++ path) source)
    | .error e => ⟨.error (.io path e), {}⟩
  | none => .of {} (c.run (a.inlineCode.getD ""))

private def sourceOf (a : Arguments) (files : Files) : Option String :=
  match a.script with
  | some path => (files path).toOption
  | none => some (a.inlineCode.getD "")

/-- Runs what the arguments say; `show_` brings messages into the form in which they are printed. -/
def runArguments (a : Arguments) (files : Files) (show_ : String → String) : Printed :=
  match configuration a files with
  | .error e => { exitCode := 1, errors := failure a show_ e none }
  | .ok c =>
    let result := runSource c a files
    let lines := result.world.printed
    match result.outcome with
    | .ok output =>
      let returned := if c.showReturns then output.values.map (·.shown result.world) else []
      { output := printedLines (lines ++ returned) }
    | .error e =>
      { exitCode := 1, output := printedLines lines, errors := failure a show_ e (sourceOf a files) }

/-- Does what a list of arguments asks for. -/
def run (args : List String) (files : Files) (show_ : String → String := id) : Printed :=
  match parse args with
  | .run a => runArguments a files show_
  | .version => { output := versionText }
  | .help isLong => { output := helpText isLong }
  | .misuse message =>
    { exitCode := 2
      errors := s!"error: {message}\n\nUsage: moonbridge [OPTIONS] [SCRIPT]\n" }

/-- The files that a request reads. -/
def filesOf (args : List String) : List String :=
  match parse args with
  | .run a => a.configFile.toList ++ a.script.toList
  | _ => []

end ScriptBridge.CommandLine
