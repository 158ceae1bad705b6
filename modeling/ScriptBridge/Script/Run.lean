import ScriptBridge.Script.Step

/-!
The tasks of an engine. A task runs in the coroutine that is current when it is asked for; only
resuming a coroutine makes another one current while it lasts.
-/

namespace ScriptBridge.Script

/-- A script that takes more steps than this does not end in time. -/
def stepLimit : Nat := 50000000

def start (s : StateId) (thread : Ref) (control : Control) (isResumed : Bool) :
    Action Outcome :=
  Machine.run stepLimit
    { state := s, thread := thread, control := control, isResumed := isResumed }

def startHere (s : StateId) (control : Control) : Action Outcome := do
  match ← .view fun w => (w.engine? s).map (·.running) with
  | some thread => start s thread control false
  | none => pure (.error (.bridge .stateClosed))

/-- Runs a prepared machine until its task ends. -/
def runPrepared (s : StateId) (prepare : Machine → Action Machine) : Action Outcome := do
  match ← .view fun w => (w.engine? s).map (·.running) with
  | some thread =>
    Machine.run stepLimit (← prepare { state := s, thread := thread, control := .give [] })
  | none => pure (.error (.bridge .stateClosed))

def resumeAt (s : StateId) (r : Ref) (konts : List Kont) (control : Control) :
    Action Outcome := do
  let previous ← .view fun w => ((w.engine? s).map (·.running)).getD r
  updateThread r fun t => { t with progress := .active }
  .perform (.setRunning s r)
  let outcome ← Machine.run stepLimit
    { state := s, thread := r, control := control, konts := konts, isResumed := true }
  .perform (.setRunning s previous)
  pure outcome

/-- A coroutine that cannot be resumed loses what the function in it that waits has on its stack. -/
def resume (s : StateId) (r : Ref) (args : List Datum) : Action Outcome := do
  match ← .view (·.progressOf r) with
  | some (.fresh body) => resumeAt s r [] (.call (.datum body) args {})
  | some (.suspended konts) => resumeAt s r konts (.give args)
  | some .active => do
    updateThread r fun t =>
      { t with
        waiting := match t.waiting with
          | first :: rest => { first with reserve := .lost } :: rest
          | [] => [] }
    pure (.error (.runtime "cannot resume non-suspended coroutine"))
  | _ => pure (.error (.runtime "cannot resume dead coroutine"))

/-- Why the source of a chunk is refused before it is read. -/
def refusal (name source : Bytes) : Option EngineError :=
  match name.findIdx? (· == 0) with
  | some position =>
    some (.runtime s!"invalid name: nul byte found in provided data at position: {position}")
  | none =>
    if (Bytes.ofString "\x1bLua").isPrefixOf source then
      let shown := Bytes.toText (match name with
        | 0x3d :: rest | 0x40 :: rest => rest
        | name => name)
      some (.syntaxError s!"{shown}: bad binary format (truncated chunk)")
    else if source.head? == some 0x1b then
      some (.syntaxError "attempt to load a binary chunk (mode is 't')")
    else none

def runChunk (s : StateId) (name source : Bytes) (args : List Datum) : Action Outcome := do
  match refusal name source with
  | some e => pure (.error e)
  | none =>
    let chunk := chunkId name
    match parse source with
    | .error e => pure (.error (.syntaxError (e.text chunk).toText))
    | .ok body => do
      let r ← .perform (.allocate s (.closure ⟨body, [], chunk⟩))
      startHere s (.call (.datum (.function r)) args {})

/-- What an engine does for a task. -/
def runTask (s : StateId) : Task → Action Outcome
  | .call f args => startHere s (.call (.datum f) args {})
  | .resume r args => resume s r args
  | .index object key => runPrepared s fun m => m.index object key none none
  | .assign object key value => runPrepared s fun m => m.assign object key value none none
  | .chunk name source args => runChunk s name source args

end ScriptBridge.Script
