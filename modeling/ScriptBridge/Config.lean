/-!
Configuration of a state: the engine's libraries and chunk name, the host library, debug checks.
-/

namespace ScriptBridge

/-- The libraries a state may open besides the base library. -/
inductive Library where
  | coroutine
  | table
  | io
  | os
  | string
  | utf8
  | math
  | package
deriving DecidableEq, Repr

namespace Library

def all : List Library := [.coroutine, .table, .io, .os, .string, .utf8, .math, .package]

def name : Library → String
  | .coroutine => "coroutine"
  | .table => "table"
  | .io => "io"
  | .os => "os"
  | .string => "string"
  | .utf8 => "utf8"
  | .math => "math"
  | .package => "package"

def ofName? (name : String) : Option Library := all.find? (·.name == name)

/-- The name in descriptions of configurations. -/
def title : Library → String
  | .coroutine => "Coroutine"
  | .table => "Table"
  | .io => "Io"
  | .os => "Os"
  | .string => "String"
  | .utf8 => "Utf8"
  | .math => "Math"
  | .package => "Package"

end Library

structure EngineConfig where
  libraries : List Library := Library.all
  /-- The name of a chunk that is executed without one. -/
  chunkName : String := "chunk"
deriving DecidableEq, Repr

structure HostLibConfig where
  enabled : Bool := true
  /-- The path of the table that holds the host library. -/
  namespace_ : String := "host"
  /-- Whether the global `each` is installed. -/
  installEach : Bool := true
deriving DecidableEq, Repr

structure DebugConfig where
  /-- Whether every `execute` checks that the bridge frames are balanced. -/
  checkStack : Bool := true
deriving DecidableEq, Repr

structure Config where
  engine : EngineConfig := {}
  hostLib : HostLibConfig := {}
  debug : DebugConfig := {}
deriving DecidableEq, Repr

/-- How a program is run: the state's configuration and what happens after the chunk. -/
structure RunConfig where
  bridge : Config := {}
  showReturns : Bool := false
  collectAfterRun : Bool := false
deriving DecidableEq, Repr

end ScriptBridge
