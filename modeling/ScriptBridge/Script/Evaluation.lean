import ScriptBridge.Script.Operation

/-!
Expressions and statements: which expressions a construct evaluates, in which order, and what it does
with their values.
-/

namespace ScriptBridge.Script

namespace Expr

/-- The largest integer key that messages recognise as one. -/
def maxNamedIndex : Int := 255

/-- The name of an expression in messages. -/
def describe : Expr → Option Described
  | .var name outer => some ⟨if outer then "upvalue" else "local", name⟩
  | .global name => some ⟨"global", name⟩
  | .text s => some ⟨"constant", s.toText⟩
  | .single e => e.describe
  | .index _ (.text s) _ => some ⟨"field", s.toText⟩
  | .index _ (.int i) _ =>
    some ⟨"field", if 0 ≤ i.toInt ∧ i.toInt ≤ maxNamedIndex then "integer index" else "?"⟩
  | .index .. => some ⟨"field", "?"⟩
  | _ => none

/-- Whether an expression is a call. -/
def isCall : Expr → Bool
  | .call .. | .method .. => true
  | _ => false

end Expr

namespace Env

def site (env : Env) (line : Nat) : Option Site := some ⟨env.chunk, line⟩

def ref? (env : Env) (name : String) : Option Ref := (env.vars.find? (·.1 == name)).map (·.2)

end Env

namespace Machine

/-- New variables; a name without a value is nil. -/
def declare (m : Machine) (env : Env) : List String → List Datum → Action Env
  | [], _ => pure env
  | name :: names, values => do
    let r ← m.allocate (.variable (values.headD .nil))
    declare m { env with vars := (name, r) :: env.vars } names (values.drop 1)

/-- A function with the variables of its surroundings. -/
def closure (m : Machine) (body : FunctionBody) (env : Env) : Action Datum := do
  let vars := body.captures.filterMap fun name => (env.ref? name).map (name, ·)
  pure (.function (← m.allocate (.closure ⟨body, vars, env.chunk⟩)))

def globalTable (m : Machine) : Action Datum :=
  .view fun w => match w.engine? m.state with
    | some e => .table e.globals
    | none => .nil

def variableAt (r : Ref) : Action Datum :=
  .view fun w => match w.cell? r with
    | some (.variable value) => value
    | _ => .nil

def tableParts : List Item → List Expr × List Slot
  | [] => ([], [])
  | .positional value :: rest =>
    let (parts, slots) := tableParts rest
    (value :: parts, .positional :: slots)
  | .keyed key value :: rest =>
    let (parts, slots) := tableParts rest
    (key :: value :: parts, .keyed :: slots)

/-- The entries of a new table: a list at the last position fills all positions from there on. -/
def tableEntries : Nat → List Slot → List Datum → List (Datum × Datum)
  | _, [], _ => []
  | n, [.positional], values =>
    values.zipIdx.map fun (v, k) => (.int (Int64.ofNat (n + 1 + k)), v)
  | n, .positional :: slots, values =>
    (.int (Int64.ofNat (n + 1)), values.headD .nil) ::
      tableEntries (n + 1) slots (values.drop 1)
  | n, .keyed :: slots, values =>
    (values.headD .nil, (values.drop 1).headD .nil) :: tableEntries n slots (values.drop 2)

def isBadKey : Datum → Option String
  | .nil => some "table index is nil"
  | .float d => if d.isNaN then some "table index is NaN" else none
  | _ => none

def newTable (m : Machine) (slots : List Slot) (values : List Datum)
    (site : Option Site) : Action Machine := do
  let entries := tableEntries 0 slots values
  match entries.findSome? fun (key, _) => isBadKey key with
  | some message => pure (m.fail site message)
  | none =>
    let content := entries.foldl (fun (t : Table) (key, value) => t.set key value) {}
    pure (m.give [.table (← m.allocate (.table content none))])

def targetParts : List Expr → List Expr × List TargetForm
  | [] => ([], [])
  | target :: rest =>
    let (parts, forms) := targetParts rest
    match target with
    | .var name _ => (parts, .var name :: forms)
    | .global name => (parts, .global name :: forms)
    | .index object key _ => (object :: key :: parts, .field object.describe :: forms)
    | _ => (parts, forms)

/-- The places of an assignment and the values for them. -/
def places (env : Env) : List TargetForm → List Datum → List Place × List Datum
  | [], values => ([], values)
  | .var name :: rest, values =>
    let (found, left) := places env rest values
    match env.ref? name with
    | some r => (.var r :: found, left)
    | none => (.global name :: found, left)
  | .global name :: rest, values =>
    let (found, left) := places env rest values
    (.global name :: found, left)
  | .field object? :: rest, values =>
    let (found, left) := places env rest (values.drop 2)
    (.field (values.headD .nil) ((values.drop 1).headD .nil) object? :: found, left)

/-- Pairs places with values; a place without a value gets nil. -/
def assignments : List Place → List Datum → List (Place × Datum)
  | [], _ => []
  | p :: rest, values => (p, values.headD .nil) :: assignments rest (values.drop 1)

/-- Carries out assignments, the last one first. -/
def store (m : Machine) (pending : List (Place × Datum)) (env : Env) (line : Nat) :
    Action Machine :=
  match pending with
  | [] => pure (m.give [])
  | (place, value) :: rest =>
    let m := m.push (.stores rest env line)
    match place with
    | .var r => do
      .perform (.write r (.variable value))
      pure (m.give [])
    | .global name => do
      m.assign (← m.globalTable) (.str name) value none (env.site line)
    | .field object key object? => m.assign object key value object? (env.site line)

/-- Has expressions evaluated from left to right; the last one may give any number of values. -/
def gather (m : Machine) (exprs : List Expr) (env : Env) (use : Use)
    (finish : Machine → Use → List Datum → Env → Action Machine) : Action Machine :=
  match exprs with
  | [] => finish m use [] env
  | e :: rest => pure ((m.push (.gather [] rest env use)).evaluate e env)

def loopBlock (m : Machine) (name : String) (value : Datum) (body : List Stmt)
    (env : Env) : Action Machine := do
  pure (m.execute body (← m.declare env [name] [value]))

/-- Runs the body of a loop over integers. -/
def runIntegers (m : Machine) (name : String) (current : Int64) (left : Nat) (step : Int64)
    (body : List Stmt) (env : Env) : Action Machine :=
  (m.push (.integers name current left step body env)).loopBlock name (.int current) body env

/-- Runs the body of a loop over floats, if there is a next one. -/
def runFloats (m : Machine) (name : String) (current limit step : Double) (body : List Stmt)
    (env : Env) : Action Machine :=
  let goesOn := if Double.zero.numLt step then current.numLe limit else limit.numLe current
  if goesOn then
    (m.push (.floats name current limit step body env)).loopBlock name (.float current) body env
  else pure (m.give [])

def failLoop (m : Machine) (what : String) (d : Datum) (site : Option Site) :
    Action Machine := do
  let typeName ← .view fun w => w.typeNameIn m.state d
  pure (m.fail site s!"bad 'for' {what} (number expected, got {typeName})")

def startFor (m : Machine) (start limit step : Datum) (name : String) (body : List Stmt)
    (env : Env) (site : Option Site) : Action Machine :=
  match start, step with
  | .int i, .int by_ =>
    if by_ == 0 then pure (m.fail site "'for' step is zero")
    else if limit.asNumber.isNone then m.failLoop "limit" limit site
    else match (loopLimit limit by_.toInt).bind (loopCount i.toInt · by_.toInt) with
      | some count => m.runIntegers name i count by_ body env
      | none => pure (m.give [])
  | start, step =>
    match limit.asFloat, step.asFloat, start.asFloat with
    | none, _, _ => m.failLoop "limit" limit site
    | _, none, _ => m.failLoop "step" step site
    | _, _, none => m.failLoop "initial value" start site
    | some last, some by_, some first =>
      if by_.isZero then pure (m.fail site "'for' step is zero")
      else m.runFloats name first last by_ body env

/-- Calls the iterator of a loop for the next values. -/
def iterate (m : Machine) (names : List String) (f state control : Datum) (body : List Stmt)
    (env : Env) (line : Nat) : Machine :=
  (m.push (.iterator names f state body env line)).call (.datum f) [state, control]
    { site := env.site line, callee := some ⟨"for iterator", "for iterator"⟩ }

/-- Does what a construct does with the values of its expressions. -/
def finish (m : Machine) (use : Use) (values : List Datum) (env : Env) : Action Machine :=
  let first := values.headD .nil
  let second := (values.drop 1).headD .nil
  match use with
  | .binary op left right line =>
    m.binary op ⟨first, left⟩ ⟨second, right⟩ (env.site line)
  | .unary op operand line => m.unary op ⟨first, operand⟩ (env.site line)
  | .index object? line => m.index first second object? (env.site line)
  | .call callee line isTail =>
    pure (m.call (.datum first) (values.drop 1)
      { site := env.site line, callee := callee, isTail := isTail })
  | .method object? name args line isTail =>
    (m.push (.methodFound first name args env line isTail)).index first (.str name) object?
      (env.site line)
  | .table slots line => m.newTable slots values (env.site line)
  | .locals names rest => do pure (m.execute rest (← m.declare env names values))
  | .assign targets line =>
    let (found, left) := places env targets values
    m.store (assignments found left).reverse env line
  | .returns => pure { m with control := .returns values }
  | .discard => pure (m.give [])
  | .leaveIf sense =>
    pure (if first.isTrue == sense then { m with control := .leave } else m.give [])
  | .conditional thenBody elseBody =>
    pure (m.execute (if first.isTrue then thenBody else elseBody) env)
  | .numericFor name body line =>
    m.startFor first second ((values.drop 2).headD .nil) name body env (env.site line)
  | .genericFor names body line =>
    pure (m.iterate names first second ((values.drop 2).headD .nil) body env line)

def gatherThen (m : Machine) (exprs : List Expr) (env : Env) (use : Use) : Action Machine :=
  m.gather exprs env use finish

/-- Evaluates a call; the result of a tail call is that of the function. -/
def evaluateCall (m : Machine) (e : Expr) (env : Env) (isTail : Bool) : Action Machine :=
  match e with
  | .call callee args line => m.gatherThen (callee :: args) env (.call callee.describe line isTail)
  | .method object name args line =>
    m.gatherThen [object] env (.method object.describe name args line isTail)
  | e => pure (m.evaluate e env)

/-- Evaluates an expression. -/
def evaluateExpr (m : Machine) (e : Expr) (env : Env) : Action Machine :=
  match e with
  | .nil => pure (m.give [.nil])
  | .bool b => pure (m.give [.bool b])
  | .int i => pure (m.give [.int i])
  | .float d => pure (m.give [.float d])
  | .text s => pure (m.give [.text s])
  | .varargs => pure (m.give env.varargs)
  | .var name _ =>
    match env.ref? name with
    | some r => do pure (m.give [← variableAt r])
    | none => pure (m.give [.nil])
  | .global name => do m.index (← m.globalTable) (.str name) none none
  | .index object key line => m.gatherThen [object, key] env (.index object.describe line)
  | .call .. | .method .. => m.evaluateCall e env false
  | .function body => do pure (m.give [← m.closure body env])
  | .binary op left right line =>
    m.gatherThen [left, right] env (.binary op left.describe right.describe line)
  | .unary op operand line => m.gatherThen [operand] env (.unary op operand.describe line)
  | .and left right => pure ((m.push (.choose true right env)).evaluate left env)
  | .or left right => pure ((m.push (.choose false right env)).evaluate left env)
  | .single e => pure ((m.push .single).evaluate e env)
  | .table items line =>
    let (parts, slots) := tableParts items
    m.gatherThen parts env (.table slots line)

/-- Runs a statement; `rest` follows it in its block. -/
def executeStmt (m : Machine) (s : Stmt) (rest : List Stmt) (env : Env) : Action Machine :=
  let m' := m.push (.block rest env)
  match s with
  | .call e => m'.gatherThen [e] env .discard
  | .locals names values => m.gatherThen values env (.locals names rest)
  | .assign targets values line =>
    let (parts, forms) := targetParts targets
    m'.gatherThen (parts ++ values) env (.assign forms line)
  | .localFunction name body => do
    let r ← m.allocate (.variable .nil)
    let env := { env with vars := (name, r) :: env.vars }
    .perform (.write r (.variable (← m.closure body env)))
    pure (m.execute rest env)
  | .block body => pure (m'.execute body env)
  | .loop body => pure ((m'.push (.loop body env)).execute body env)
  | .leaveIf condition sense => m'.gatherThen [condition] env (.leaveIf sense)
  | .conditional condition thenBody elseBody =>
    m'.gatherThen [condition] env (.conditional thenBody elseBody)
  | .numericFor name start limit step body line =>
    m'.gatherThen [start, limit, step] env (.numericFor name body line)
  | .genericFor names values body line => m'.gatherThen values env (.genericFor names body line)
  | .leave => pure { m with control := .leave }
  | .returns [e] =>
    if e.isCall then (m.push (.gather [] [] env .returns)).evaluateCall e env true
    else m.gatherThen [e] env .returns
  | .returns values => m.gatherThen values env .returns

end Machine

end ScriptBridge.Script
