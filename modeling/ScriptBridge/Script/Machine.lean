import ScriptBridge.Action
import ScriptBridge.Script.Metamethod
import ScriptBridge.World.Threads

/-!
The machine that runs scripts: what it does next, and the frames that wait for it. Coroutines that
have resumed the running one wait with frames of their own.
-/

namespace ScriptBridge.Script

inductive Control where
  | evaluate (e : Expr) (env : Env)
  | execute (body : List Stmt) (env : Env)
  /-- Hands values to the innermost frame. -/
  | give (values : List Datum)
  /-- Leaves the innermost loop. -/
  | leave
  /-- Ends the function that runs. -/
  | returns (values : List Datum)
  | call (f : Callee) (args : List Datum) (form : CallForm)
  /-- Fails; the site is that of the innermost script function. -/
  | raise (e : Datum) (site : Option Site)
  /-- Suspends the coroutine that runs. -/
  | suspend (values : List Datum)

structure Machine where
  state : StateId
  /-- The coroutine that runs. -/
  thread : Ref
  control : Control
  /-- The frames of the coroutine that runs, the innermost first. -/
  konts : List Kont := []
  /-- The coroutines that wait for it, the innermost first. -/
  callers : List (Ref × List Kont) := []
  /-- Whether the outermost coroutine was resumed, and not entered by a call. -/
  isResumed : Bool := false

namespace Site

/-- A site as messages begin with it. -/
def text (site : Option Site) : Bytes :=
  match site with
  | some s => s.chunk ++ Bytes.ofString s!":{s.line}: "
  | none => []

end Site

namespace Described

/-- The name of an operand as messages end with it. -/
def text (d : Option Described) : String :=
  match d with
  | some d => s!" ({d.kind} '{d.name}')"
  | none => ""

/-- The name of a function as traces show it; `otherwise` is for one without a name. -/
def title (d : Option Described) (otherwise : String) : String :=
  match d with
  | some d =>
    let kind := if d.kind == "global" then "function" else d.kind
    s!"{kind} '{d.name}'"
  | none => otherwise

end Described

namespace Kont

/-- The site of the call that a frame of a function is for. -/
def caller? : Kont → Option (Option Site)
  | .activation caller _ | .builtin caller _ | .protectedCall caller | .handledCall _ caller
  | .handling _ _ caller | .triple caller => some caller
  | _ => none

/-- Whether a coroutine with such a frame cannot be suspended. -/
def isBarrier : Kont → Bool
  | .builtin .. | .handling .. | .report _ => true
  | _ => false

/-- Whether the frame catches failures. -/
def catches : Kont → Bool
  | .protectedCall _ | .handledCall .. | .handling .. => true
  | _ => false

/-- Whether the frame is that of a loop. -/
def isLoop : Kont → Bool
  | .loop .. | .integers .. | .floats .. | .iterations .. => true
  | _ => false

def isActivation : Kont → Bool
  | .activation .. => true
  | _ => false

private def traceLine (site : Option Site) : Kont → Option String
  | .activation _ title =>
    match site with
    | some s => some s!"{s.chunk.toText}:{s.line}: in {title}"
    | none => some s!"?: in {title}"
  | .builtin _ title => some s!"[C]: in {title}"
  | .protectedCall _ => some "[C]: in function 'pcall'"
  | .handledCall .. | .handling .. => some "[C]: in function 'xpcall'"
  | .triple _ => some "[C]: in function 'pairs'"
  | _ => none

/-- The stack of functions, innermost first; `site` is where the innermost one stands. -/
def trace : Option Site → List Kont → List String
  | _, [] => []
  | site, k :: rest =>
    match traceLine site k, k.caller? with
    | some line, some caller => line :: trace caller rest
    | _, _ => trace site rest

end Kont

/-- The lines of a stack under a heading. -/
def traceText (lines : List String) : String :=
  String.join ("stack traceback:" :: lines.map ("\n\t" ++ ·))

/-- Changes a coroutine. -/
def updateThread (r : Ref) (f : Thread → Thread) : Action Unit := do
  match ← .view (·.thread? r) with
  | some t => .perform (.write r (.thread (f t)))
  | none => pure ()

namespace Machine

def give (m : Machine) (values : List Datum) : Machine := { m with control := .give values }

def push (m : Machine) (k : Kont) : Machine := { m with konts := k :: m.konts }

def evaluate (m : Machine) (e : Expr) (env : Env) : Machine :=
  { m with control := .evaluate e env }

def execute (m : Machine) (body : List Stmt) (env : Env) : Machine :=
  { m with control := .execute body env }

def call (m : Machine) (f : Callee) (args : List Datum) (form : CallForm) : Machine :=
  { m with control := .call f args form }

def raise (m : Machine) (e : Datum) (site : Option Site) : Machine :=
  { m with control := .raise e site }

/-- Fails with a message at a site. -/
def fail (m : Machine) (site : Option Site) (message : String) : Machine :=
  m.raise (.text (Site.text site ++ Bytes.ofString message)) site

def allocate (m : Machine) (cell : Cell) : Action Ref := .perform (.allocate m.state cell)

def metamethod (m : Machine) (d : Datum) (event : String) : Action (Option Callee) :=
  .view fun w => w.metamethod m.state d event

/-- What the first of two operands has for an event, or else the second. -/
def metamethodOf (m : Machine) (left right : Datum) (event : String) : Action (Option Callee) :=
  .view fun w =>
    (w.metamethod m.state left event).orElse fun _ => w.metamethod m.state right event

/-- Calls a metamethod at a site. -/
def callMetamethod (m : Machine) (f : Callee) (event : String) (args : List Datum)
    (site : Option Site) : Machine :=
  m.call f args { site := site, callee := some ⟨"metamethod", eventName event⟩ }

/-- Fails because a datum does not have an operation. -/
def failOn (m : Machine) (operation : String) (d : Datum) (name : Option Described)
    (site : Option Site) : Action Machine := do
  let typeName ← .view fun w => w.typeNameIn m.state d
  pure (m.fail site s!"attempt to {operation} a {typeName} value{Described.text name}")

/-- The sites of the functions that run, from the caller of the innermost one on. -/
def callers? (m : Machine) : List (Option Site) := m.konts.filterMap Kont.caller?

/-- Whether the coroutine that runs can be suspended here. -/
def canSuspend (m : Machine) : Bool :=
  (m.isResumed || !m.callers.isEmpty) && !m.konts.any Kont.isBarrier

/-- The lines of the stack from a site on, with those below the machine. -/
def traceLines (m : Machine) (w : World) (site : Option Site) : List String :=
  let below := match w.cell? m.thread with
    | some (.thread t) => ((t.waiting.head?).map (·.trace)).getD []
    | _ => []
  Kont.trace site m.konts ++ below

end Machine

end ScriptBridge.Script
