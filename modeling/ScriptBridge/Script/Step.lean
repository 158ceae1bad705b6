import ScriptBridge.Script.Callback
import ScriptBridge.Script.Evaluation
import ScriptBridge.Script.Parser

/-!
The steps of the machine: values reach the innermost frame, functions are called, failures look for a
frame that catches them, and coroutines hand over to those that wait for them.
-/

namespace ScriptBridge.Script

/-- How a task of the engine ends. -/
abbrev Outcome := Except EngineError (List Datum)

/-- A machine that goes on, or the end of its task. -/
inductive Next where
  | continue (m : Machine)
  | done (outcome : Outcome)

namespace Machine

/-- How often the failures of a handler are handed to the handler itself. -/
def handlingLimit : Nat := 200

/-- Enters a script function. -/
def enter (m : Machine) (c : Closure) (args : List Datum) (form : CallForm) :
    Action Machine := do
  let params := c.body.params
  let outer : Env := { vars := c.vars, varargs := args.drop params.length, chunk := c.chunk }
  let env ← m.declare outer params args
  let chunk := c.chunk.toText
  let line := c.body.line
  let unnamed := if line = 0 then "main chunk" else s!"function <{chunk}:{line}>"
  let title := Described.title form.callee unnamed
  let below := m.konts.dropWhile (!·.isActivation)
  let konts :=
    match form.isTail, below with
    | true, .activation caller _ :: rest => .activation caller title :: rest
    | _, _ => .activation form.site title :: m.konts
  pure { m with konts := konts, control := .execute c.body.body env }

/-- Calls a function, or what another datum has for being called. -/
def enterCall (m : Machine) (f : Callee) (args : List Datum) (form : CallForm) :
    Action Machine := do
  match f with
  | .member event => m.callNative form (runMember m.state event args)
  | .datum d =>
    let cell ← .view fun w => match d with
      | .function r => w.cell? r
      | _ => none
    match cell with
    | some (.closure c) => m.enter c args form
    | some (.builtin (.host h)) => m.callNative form (runHost m.state h args)
    | some (.builtin (.member event)) => m.callNative form (runMember m.state event args)
    | some (.builtin b) => (m.runStandard ⟨b, args, form⟩).finish
    | _ =>
      match ← m.metamethod d "__call" with
      | some handler => pure (m.call handler (d :: args) form)
      | none => m.failOn "call" d form.callee form.site

def first (values : List Datum) : Datum := values.headD .nil

/-- Hands values to the innermost frame, which has been taken off the machine. -/
def deliver (m : Machine) (k : Kont) (values : List Datum) : Action Machine :=
  match k with
  | .gather done (e :: rest) env use =>
    pure ((m.push (.gather (first values :: done) rest env use)).evaluate e env)
  | .gather done [] env use => m.finish use (done.reverse ++ values) env
  | .choose isAnd right env =>
    if (first values).isTrue == isAnd then pure ((m.push .single).evaluate right env)
    else pure (m.give [first values])
  | .single => pure (m.give [first values])
  | .truth negated => pure (m.give [.bool ((first values).isTrue != negated)])
  | .methodFound object name args env line isTail =>
    match args with
    | [] => m.finish (.call (some ⟨"method", name⟩) line isTail) [first values, object] env
    | e :: rest =>
      let use := .call (some ⟨"method", name⟩) line isTail
      pure ((m.push (.gather [object, first values] rest env use)).evaluate e env)
  | .stores pending env line => m.store pending env line
  | .block rest env => pure (m.execute rest env)
  | .loop body env => pure ((m.push (.loop body env)).execute body env)
  | .integers name current left step body env =>
    match left with
    | 0 => pure (m.give [])
    | n + 1 => m.runIntegers name (current + step) n step body env
  | .floats name current limit step body env =>
    m.runFloats name (current.add step) limit step body env
  | .iterations names f state control body env line =>
    pure (m.iterate names f state control body env line)
  | .iterator names f state body env line =>
    if (first values).isNil then pure (m.give [])
    else do
      let inner ← m.declare env names values
      pure ((m.push (.iterations names f state (first values) body env line)).execute body inner)
  | .activation .. | .builtin .. => pure (m.give values)
  | .protectedCall _ | .handledCall .. => pure (m.give (.bool true :: values))
  | .handling .. => pure (m.give [.bool false, first values])
  | .text caller =>
    match (first values).asText with
    | some s => pure (m.give [.text s])
    | none => pure (m.fail caller "'__tostring' must return a string")
  | .printing done rest =>
    let done := (first values).asText.getD [] :: done
    match rest with
    | [] => do
      .perform (.print (Bytes.toText ((done.reverse.intersperse [0x09]).flatten)))
      pure (m.give [])
    | d :: rest => (m.push (.printing done rest)).showDatum d none
  | .triple _ => pure (m.give ((values ++ List.replicate 3 Datum.nil).take 3))
  | .ipairsValue i =>
    pure (m.give (if (first values).isNil then [.nil] else [.int i, first values]))
  | .resumed wrapped _ => pure (m.give (if wrapped then values else .bool true :: values))
  | .report _ => pure (m.give values)

/-- Ends the coroutine that runs, or suspends it; the one that waits for it goes on. -/
def handOver (m : Machine) (progress : Progress) (caller : Ref) (konts : List Kont)
    (callers : List (Ref × List Kont)) : Action Machine := do
  updateThread m.thread fun t => { t with progress := progress }
  updateThread caller fun t => { t with waiting := t.waiting.drop 1 }
  .perform (.setRunning m.state caller)
  pure { m with thread := caller, konts := konts, callers := callers }

/-- Ends the task of the machine. -/
def endTask (m : Machine) (progress : Progress) (outcome : Outcome) : Action Next := do
  if m.isResumed then updateThread m.thread fun t => { t with progress := progress }
  pure (.done outcome)

/-- Values with no frame left in the coroutine that runs. -/
def complete (m : Machine) (progress : Progress) (values : List Datum) : Action Next :=
  match m.callers with
  | [] => m.endTask progress (.ok values)
  | (caller, konts) :: callers => do
    pure (.continue ((← m.handOver progress caller konts callers).give values))

/-- The failure of a coroutine, in the frame that resumed it. -/
def receiveFailure (m : Machine) (e : Datum) : Machine :=
  match m.konts with
  | .resumed false _ :: rest => { m with konts := rest }.give [.bool false, e]
  | .resumed true caller :: rest =>
    let e := match e with
      | .text s => .text (Site.text caller ++ s)
      | e => e
    { m with konts := rest }.raise e caller
  | _ => m.raise e none

/-- A failure that no frame of the coroutine catches. -/
def uncaught (m : Machine) (e : Datum) (site : Option Site) : Action Next :=
  match m.callers with
  | (caller, konts) :: callers => do
    let wrapped := match konts with
      | .resumed wrapped _ :: _ => wrapped
      | _ => false
    let progress := .ended (if wrapped then none else some e)
    let m ← m.handOver progress caller konts callers
    pure (.continue (m.receiveFailure e))
  | [] =>
    match e with
    | .failure err => m.endTask (.ended (some e)) (.error err)
    | e => do
      let lines ← .view (m.traceLines · site)
      let m := { m with konts := [.report (traceText lines)] }
      .continue <$> m.showDatum e none

/-- Looks for the frame that catches a failure. -/
def catchFailure (m : Machine) (e : Datum) (site : Option Site) : Action Next :=
  match m.konts.dropWhile (!·.catches) with
  | .protectedCall _ :: rest => pure (.continue ({ m with konts := rest }.give [.bool false, e]))
  | .handledCall handler caller :: rest =>
    pure (.continue ({ m with konts := .handling handler handlingLimit caller :: rest }.call
      (.datum handler) [e] {}))
  | .handling handler (n + 1) caller :: rest =>
    pure (.continue ({ m with konts := .handling handler n caller :: rest }.call
      (.datum handler) [e] {}))
  | .handling _ 0 _ :: rest =>
    pure (.continue ({ m with konts := rest }.give [.bool false, .str "error in error handling"]))
  | _ => m.uncaught e site

/-- One step. -/
def step (m : Machine) : Action Next :=
  match m.control with
  | .evaluate e env => .continue <$> m.evaluateExpr e env
  | .execute [] _ => pure (.continue (m.give []))
  | .execute (s :: rest) env => .continue <$> m.executeStmt s rest env
  | .give values =>
    match m.konts, m.callers with
    | [], _ => m.complete (.ended none) values
    | [.report trace], [] =>
      let text := Bytes.toText ((first values).asText.getD [])
      m.endTask (.ended (some (.str text))) (.error (.runtime (text ++ "\n" ++ trace)))
    | k :: rest, _ => .continue <$> { m with konts := rest }.deliver k values
  | .leave =>
    let rest := m.konts.dropWhile (!·.isLoop)
    pure (.continue ({ m with konts := rest.drop 1 }.give []))
  | .returns values =>
    let rest := m.konts.dropWhile (!·.isActivation)
    pure (.continue ({ m with konts := rest.drop 1 }.give values))
  | .call f args form => .continue <$> m.enterCall f args form
  | .raise e site => m.catchFailure e site
  | .suspend values => m.complete (.suspended m.konts) values

/-- Runs the machine for at most a number of steps. -/
def run : Nat → Machine → Action Outcome
  | 0, _ => .fail .exhausted
  | n + 1, m => do
    match ← m.step with
    | .done outcome => pure outcome
    | .continue m => run n m

end Machine

end ScriptBridge.Script
