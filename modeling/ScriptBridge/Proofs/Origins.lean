import ScriptBridge.Proofs.Scripted
import ScriptBridge.Script.Run

/-!
The coroutine that a task has begun in. A machine may go on in other coroutines, which its scripts
resume, but each of its steps stays within the task: the coroutine in which that has begun still
runs or waits.
-/

namespace ScriptBridge.Script

open ScriptBridge.Action (Scripted)

-- What the arguments of native code satisfy that a machine calls.
variable {N : List Datum → Prop}

namespace Machine

/-- The state of a machine, the coroutine in which its task has begun, and whether that was resumed
for the task. -/
def origin (m : Machine) : StateId × Ref × Bool :=
  (m.state, ((m.callers.getLast?).map (·.1)).getD m.thread, m.isResumed)

/-- Whether a program leads on within the task of a machine. -/
abbrev Leaves (m : Machine) (N : List Datum → Prop) (a : Action Machine) : Prop :=
  a.Scripted N m.state fun m' => m'.origin = m.origin

variable (m : Machine)

theorem scripted_declare (env : Env) (names : List String) (values : List Datum) :
    (m.declare env names values).Scripted N m.state fun _ => True := by
  induction names generalizing env values with
  | nil => exact .pure trivial
  | cons name names ih => exact .next rfl fun _ => ih _ _

theorem scripted_closure (body : FunctionBody) (env : Env) :
    (m.closure body env).Scripted N m.state fun _ => True :=
  .next rfl fun _ => .pure trivial

section Operations

theorem leaves_failOn (operation : String) (d : Datum) (name : Option Described)
    (site : Option Site) : m.Leaves N (m.failOn operation d name site) :=
  .next trivial fun _ => rfl

theorem leaves_indexTo (key : Datum) (site : Option Site) (n : Nat) (object : Datum)
    (name : Option Described) : m.Leaves N (m.indexTo key site n object name) := by
  induction n generalizing object name with
  | zero => rfl
  | succ n ih =>
    refine .next trivial fun raw => ?_
    split
    · rfl
    · refine .next trivial fun found => ?_
      split
      · rfl
      · exact m.leaves_failOn _ _ _ _
      · rfl
      · rfl
      · exact ih _ none

theorem leaves_index (object key : Datum) (name : Option Described) (site : Option Site) :
    m.Leaves N (m.index object key name site) :=
  m.leaves_indexTo key site chainLimit object name

theorem leaves_rawAssign (r : Ref) (key value : Datum) (site : Option Site) :
    m.Leaves N (m.rawAssign r key value site) := by
  have store : m.Leaves N (rawAssign.store m r key value) :=
    .next trivial fun _ => .next trivial fun _ => rfl
  unfold rawAssign
  split
  · rfl
  · split
    · rfl
    · exact store
  · exact store

theorem leaves_assignTo (key value : Datum) (site : Option Site) (n : Nat) (object : Datum)
    (name : Option Described) : m.Leaves N (m.assignTo key value site n object name) := by
  induction n generalizing object name with
  | zero => rfl
  | succ n ih =>
    refine .next trivial fun raw => ?_
    extract_lets rest
    have going (found : Option Callee) : m.Leaves N (rest found) := by
      unfold rest
      split
      · exact m.leaves_rawAssign _ _ _ _
      · exact m.leaves_failOn _ _ _ _
      · rfl
      · rfl
      · exact ih _ none
    split
    · exact .next trivial going
    · exact going none

theorem leaves_assign (object key value : Datum) (name : Option Described) (site : Option Site) :
    m.Leaves N (m.assign object key value name site) :=
  m.leaves_assignTo key value site chainLimit object name

theorem origin_giveResult (site : Option Site) (result : Except ArithmeticError Datum) :
    (m.giveResult site result).origin = m.origin := by
  cases result <;> rfl

theorem leaves_failArithmetic (op : BinaryOp) (left right : Operand) (site : Option Site) :
    m.Leaves N (m.failArithmetic op left right site) := by
  unfold failArithmetic
  dsimp only
  split
  · rfl
  · exact m.leaves_failOn _ _ _ _

theorem leaves_textArithmetic (op : BinaryOp) (left right : Operand) (site : Option Site) :
    m.Leaves N (m.textArithmetic op left right site) := by
  unfold textArithmetic
  split
  · exact m.origin_giveResult site _
  · extract_lets rest
    have going (found : Option Callee) : m.Leaves N (rest found) := by
      unfold rest
      split <;> rfl
    split
    · exact going none
    · exact .next trivial going

theorem leaves_arithmetic (op : BinaryOp) (left right : Operand) (site : Option Site) :
    m.Leaves N (m.arithmetic op left right site) := by
  unfold arithmetic
  extract_lets direct
  clear_value direct
  split
  · exact m.origin_giveResult site _
  · refine .next trivial fun hasStrings => ?_
    extract_lets afterOwn
    have goingOwn (found : Option Callee) : m.Leaves N (afterOwn found) := by
      unfold afterOwn
      extract_lets viaText afterOther
      have goingOther (other : Option Callee) : m.Leaves N (afterOther other) := by
        unfold afterOther
        split
        · exact m.leaves_textArithmetic op left right site
        · split
          · rfl
          · exact m.leaves_failArithmetic op left right site
      split
      · exact goingOther none
      · exact .next trivial goingOther
    split
    · exact goingOwn none
    · exact .next trivial goingOwn

theorem leaves_concatenate (left right : Operand) (site : Option Site) :
    m.Leaves N (m.concatenate left right site) := by
  unfold concatenate
  split
  · rfl
  · refine .next trivial fun found => ?_
    split
    · rfl
    · exact m.leaves_failOn _ _ _ _

theorem leaves_equal (negated : Bool) (left right : Datum) (site : Option Site) :
    m.Leaves N (m.equal negated left right site) := by
  unfold equal
  extract_lets mayDiffer rest
  have going (found : Option Callee) : m.Leaves N (rest found) := by
    unfold rest
    split <;> rfl
  split
  · exact .next trivial going
  · exact going none

theorem leaves_compare (orEqual : Bool) (left right : Datum) (site : Option Site) :
    m.Leaves N (m.compare orEqual left right site) := by
  unfold compare
  split
  · rfl
  · refine .next trivial fun found => ?_
    split
    · rfl
    · exact .next trivial fun _ => .next trivial fun _ => rfl

theorem leaves_binary (op : BinaryOp) (left right : Operand) (site : Option Site) :
    m.Leaves N (m.binary op left right site) := by
  unfold binary
  split
  · exact m.leaves_concatenate left right site
  · exact m.leaves_equal _ _ _ _
  · exact m.leaves_equal _ _ _ _
  · exact m.leaves_compare _ _ _ _
  · exact m.leaves_compare _ _ _ _
  · exact m.leaves_compare _ _ _ _
  · exact m.leaves_compare _ _ _ _
  · exact m.leaves_arithmetic _ _ _ _

theorem leaves_negate (o : Operand) (site : Option Site) : m.Leaves N (m.negate o site) := by
  refine .next trivial fun hasStrings => ?_
  split
  · rfl
  · extract_lets rest
    have going (found : Option Callee) : m.Leaves N (rest found) := by
      unfold rest
      split
      · rfl
      · exact m.leaves_failOn _ _ _ _
    split
    · exact going none
    · exact .next trivial going

theorem leaves_complement (o : Operand) (site : Option Site) : m.Leaves N (m.complement o site) := by
  unfold complement
  split
  · rfl
  · refine .next trivial fun found => ?_
    split
    · rfl
    · exact m.leaves_failArithmetic _ _ _ _

theorem leaves_length (o : Operand) (site : Option Site) : m.Leaves N (m.length o site) := by
  unfold length
  split
  · rfl
  · refine .next trivial fun found => ?_
    split
    · rfl
    · exact .next trivial fun _ => rfl
    · exact m.leaves_failOn _ _ _ _

theorem leaves_unary (op : UnaryOp) (o : Operand) (site : Option Site) :
    m.Leaves N (m.unary op o site) := by
  cases op with
  | not => rfl
  | neg => exact m.leaves_negate o site
  | len => exact m.leaves_length o site
  | bnot => exact m.leaves_complement o site

theorem leaves_showDatum (d : Datum) (site : Option Site) : m.Leaves N (m.showDatum d site) := by
  unfold showDatum
  split
  · rfl
  · rfl
  · rfl
  · split
    · rfl
    · refine .next trivial fun found => ?_
      split
      · rfl
      · exact .next trivial fun _ => rfl

end Operations

section Evaluation

variable (env : Env)

theorem leaves_newTable (slots : List Slot) (values : List Datum) (site : Option Site) :
    m.Leaves N (m.newTable slots values site) := by
  unfold newTable
  extract_lets entries
  split
  · rfl
  · exact .next rfl fun _ => rfl

theorem leaves_store (pending : List (Place × Datum)) (line : Nat) :
    m.Leaves N (m.store pending env line) := by
  cases pending with
  | nil => rfl
  | cons first rest =>
    obtain ⟨place, value⟩ := first
    cases place with
    | var r => exact .next trivial fun _ => rfl
    | «global» name => exact .next trivial fun g => (m.push _).leaves_assign g _ _ _ _
    | field object key object? => exact (m.push _).leaves_assign _ _ _ _ _

theorem leaves_loopBlock (name : String) (value : Datum) (body : List Stmt) :
    m.Leaves N (m.loopBlock name value body env) :=
  .after (m.scripted_declare _ _ _) fun _ => rfl

theorem leaves_runFloats (name : String) (current limit step : Double) (body : List Stmt) :
    m.Leaves N (m.runFloats name current limit step body env) := by
  unfold runFloats
  extract_lets goesOn
  split
  · exact (m.push _).leaves_loopBlock env _ _ _
  · rfl

theorem leaves_failLoop (what : String) (d : Datum) (site : Option Site) :
    m.Leaves N (m.failLoop what d site) :=
  .next trivial fun _ => rfl

theorem leaves_startFor (start limit step : Datum) (name : String) (body : List Stmt)
    (site : Option Site) : m.Leaves N (m.startFor start limit step name body env site) := by
  unfold startFor
  split
  · split
    · rfl
    · split
      · exact m.leaves_failLoop _ _ _
      · split
        · exact (m.push _).leaves_loopBlock env _ _ _
        · rfl
  · split
    · exact m.leaves_failLoop _ _ _
    · exact m.leaves_failLoop _ _ _
    · exact m.leaves_failLoop _ _ _
    · split
      · rfl
      · exact m.leaves_runFloats env _ _ _ _ _

theorem leaves_finish (use : Use) (values : List Datum) : m.Leaves N (m.finish use values env) := by
  cases use with
  | binary => exact m.leaves_binary _ _ _ _
  | unary => exact m.leaves_unary _ _ _
  | index => exact m.leaves_index _ _ _ _
  | call => rfl
  | method => exact (m.push _).leaves_index _ _ _ _
  | table => exact m.leaves_newTable _ _ _
  | locals => exact .after (m.scripted_declare _ _ _) fun _ => rfl
  | assign => exact m.leaves_store env _ _
  | leaveIf sense =>
    simp only [finish]
    split <;> rfl
  | numericFor => exact m.leaves_startFor env _ _ _ _ _ _
  | returns | discard | conditional | genericFor => rfl

theorem leaves_gatherThen (exprs : List Expr) (use : Use) :
    m.Leaves N (m.gatherThen exprs env use) := by
  cases exprs with
  | nil => exact m.leaves_finish env use []
  | cons => rfl

theorem leaves_evaluateCall (e : Expr) (isTail : Bool) :
    m.Leaves N (m.evaluateCall e env isTail) := by
  unfold evaluateCall
  split
  · exact m.leaves_gatherThen env _ _
  · exact m.leaves_gatherThen env _ _
  · rfl

theorem leaves_evaluateExpr (e : Expr) : m.Leaves N (m.evaluateExpr e env) := by
  unfold evaluateExpr
  split
  case h_7 =>
    split
    · exact .next trivial fun _ => rfl
    · rfl
  case h_8 => exact .next trivial fun g => m.leaves_index g _ _ _
  all_goals first
    | rfl
    | exact m.leaves_gatherThen env _ _
    | exact m.leaves_evaluateCall env _ _
    | exact .after (m.scripted_closure _ env) fun _ => rfl

theorem leaves_executeStmt (s : Stmt) (rest : List Stmt) : m.Leaves N (m.executeStmt s rest env) := by
  have pushed (exprs : List Expr) (use : Use) :
      m.Leaves N ((m.push (.block rest env)).gatherThen exprs env use) :=
    (m.push (.block rest env)).leaves_gatherThen env exprs use
  unfold executeStmt
  dsimp only
  split
  case h_12 =>
    split
    · exact (m.push _).leaves_evaluateCall env _ _
    · exact m.leaves_gatherThen env _ _
  all_goals first
    | rfl
    | exact pushed _ _
    | exact m.leaves_gatherThen env _ _
    | exact .next rfl fun _ => .after (m.scripted_closure _ _) fun _ => .next trivial fun _ => rfl

end Evaluation

end Machine

namespace Course

/-- How a library function may end within the task of a machine: it gives something that satisfies a
condition, or another machine of the task fails. -/
def EndsWithin (m : Machine) (P : α → Prop) : Except Machine α → Prop
  | .ok a => P a
  | .error m' => m'.origin = m.origin

def Stays (N : List Datum → Prop) (m : Machine) (c : Course α) (P : α → Prop) : Prop :=
  c.run.Scripted N m.state (EndsWithin m P)

namespace Stays

variable {m : Machine} {P : α → Prop} {Q : β → Prop}

theorem pure {a : α} (holds : P a) : Stays N m (Pure.pure a) P := Scripted.pure holds

theorem throw {m' : Machine} (same : m'.origin = m.origin) :
    Stays N m (MonadExcept.throw m' : Course α) P :=
  Scripted.pure same

theorem bind {c : Course α} {f : α → Course β} (first : Stays N m c P)
    (rest : ∀ a, P a → Stays N m (f a) Q) : Stays N m (c >>= f) Q := by
  refine Scripted.bind first ?_
  rintro (m' | a) ended
  · exact .pure ended
  · exact rest a ended

theorem after {c : Course α} {f : α → Course β} (first : Stays N m c fun _ => True)
    (rest : ∀ a, Stays N m (f a) Q) : Stays N m (c >>= f) Q :=
  first.bind fun a _ => rest a

theorem lift {a : Action α} (scripted : a.Scripted N m.state P) : Stays N m (Course.lift a) P :=
  Scripted.map scripted fun _ holds => holds

theorem next {o : Op α} {f : α → Course β} (own : o.OfEngine m.state)
    (rest : ∀ a, Stays N m (f a) Q) :
    Stays N m (Course.lift (Action.perform o) >>= f) Q :=
  after (lift ⟨own, fun _ => trivial⟩) rest

theorem finish {c : Course Machine} (stays : Stays N m c fun m' => m'.origin = m.origin) :
    m.Leaves N c.finish := by
  refine Scripted.bind stays ?_
  rintro (m' | m') ended
  · exact .pure ended
  · exact .pure ended

end Stays

end Course

theorem scripted_updateThread {s : StateId} (r : Ref) (f : Thread → Thread) :
    (updateThread r f).Scripted N s fun _ => True := by
  refine .next trivial fun found => ?_
  split
  · exact ⟨trivial, fun _ => trivial⟩
  · exact .pure trivial

namespace Machine

open Course (Stays)

variable (m : Machine) (c : Invocation)

section Checks

variable {P : α → Prop}

theorem stays_stop (message : String) : Stays N m (m.stop c message) P := .throw rfl

theorem stays_stopInside (message : String) : Stays N m (m.stopInside c message) P := .throw rfl

theorem stays_stopArgument (n : Nat) (extra : String) : Stays N m (m.stopArgument c n extra) P :=
  m.stays_stop c _

theorem stays_stopType (n : Nat) (expected : String) : Stays N m (m.stopType c n expected) P := by
  unfold stopType
  extract_lets rest
  have going (found : String) : Stays N m (rest found) P := m.stays_stopArgument c _ _
  split
  · exact .next trivial going
  · exact going _

end Checks

theorem stays_checkAny (n : Nat) : Stays N m (m.checkAny c n) fun _ => True := by
  unfold checkAny
  split
  · exact .pure trivial
  · exact m.stays_stopArgument c _ _

theorem stays_checkTable (n : Nat) : Stays N m (m.checkTable c n) fun _ => True := by
  unfold checkTable
  split
  · exact .pure trivial
  · exact m.stays_stopType c _ _

theorem stays_checkFunction (n : Nat) : Stays N m (m.checkFunction c n) fun _ => True := by
  unfold checkFunction
  split
  · exact .pure trivial
  · exact m.stays_stopType c _ _

theorem stays_checkThread (n : Nat) : Stays N m (m.checkThread c n) fun _ => True := by
  unfold checkThread
  split
  · exact .pure trivial
  · exact m.stays_stopType c _ _

theorem stays_checkText (n : Nat) : Stays N m (m.checkText c n) fun _ => True := by
  unfold checkText
  split
  · exact .pure trivial
  · exact m.stays_stopType c _ _

theorem stays_checkInt (n : Nat) : Stays N m (m.checkInt c n) fun _ => True := by
  unfold checkInt
  split
  · exact m.stays_stopType c _ _
  · split
    · exact .pure trivial
    · split
      · exact m.stays_stopArgument c _ _
      · exact m.stays_stopType c _ _

theorem stays_optInt (n : Nat) (default : Int) : Stays N m (m.optInt c n default) fun _ => True := by
  unfold optInt
  split
  · exact m.stays_checkInt c n
  · exact .pure trivial

theorem stays_newFunction (b : Builtin) : Stays N m (m.newFunction b) fun _ => True :=
  .next rfl fun _ => .pure trivial

/-- A library function goes on within the task. -/
abbrev Remains (N : List Datum → Prop) (course : Course Machine) : Prop :=
  Stays N m course fun m' => m'.origin = m.origin

theorem origin_raiseAt (e : Datum) (level : Int) : (m.raiseAt c e level).origin = m.origin := by
  unfold raiseAt
  split
  · split <;> rfl
  · rfl

theorem remains_runAssert : m.Remains N (m.runAssert c) := by
  unfold runAssert
  split
  · exact m.stays_stopArgument c _ _
  · refine .pure ?_
    split
    · rfl
    · exact m.origin_raiseAt c _ _

theorem remains_runError : m.Remains N (m.runError c) :=
  .after (m.stays_optInt c _ _) fun _ => .pure (m.origin_raiseAt c _ _)

theorem remains_runSelect : m.Remains N (m.runSelect c) := by
  unfold runSelect
  extract_lets count
  split
  · exact .pure rfl
  · refine .after (m.stays_checkInt c _) fun n => ?_
    split
    · exact .pure rfl
    · split
      · exact .pure rfl
      · exact m.stays_stopArgument c _ _

theorem remains_runTonumber : m.Remains N (m.runTonumber c) := by
  unfold runTonumber
  split
  · refine .after (m.stays_checkInt c _) fun base => ?_
    split
    · split
      · exact .pure rfl
      · exact m.stays_stopArgument c _ _
    · exact m.stays_stopType c _ _
  · exact .after (m.stays_checkAny c _) fun _ => .pure rfl

theorem remains_runNext : m.Remains N (m.runNext c) := by
  refine .after (m.stays_checkTable c _) fun r => .next trivial fun content => ?_
  split
  · exact .pure rfl
  · exact .pure rfl
  · exact m.stays_stopInside c _

theorem remains_runPairs : m.Remains N (m.runPairs c) := by
  refine .after (m.stays_checkAny c _) fun d => .next trivial fun found => ?_
  split
  · exact .pure rfl
  · exact .after (m.stays_newFunction _) fun _ => .pure rfl

theorem remains_runIpairsStep : m.Remains N (m.runIpairsStep c) :=
  .after (m.stays_checkInt c _) fun i =>
    .lift (((m.push (.builtin c.form.site c.title)).push
      (.ipairsValue (Int64.ofInt (i + 1)))).leaves_index _ _ _ _)

theorem remains_runSetmetatable : m.Remains N (m.runSetmetatable c) := by
  refine .after (m.stays_checkTable c _) fun r => ?_
  extract_lets rest
  have going (metatable : Option Ref) : m.Remains N (rest metatable) := by
    refine .next trivial fun shown => ?_
    split
    · exact m.stays_stop c _
    · exact .next trivial fun _ => .next trivial fun _ => .pure rfl
  split
  · exact going none
  · exact going (some _)
  · exact .after (m.stays_stopType c _ _) going

theorem remains_runRawlen : m.Remains N (m.runRawlen c) := by
  unfold runRawlen
  split
  · exact .pure rfl
  · exact .next trivial fun _ => .pure rfl
  · exact m.stays_stopType c _ _

theorem remains_runCollectgarbage : m.Remains N (m.runCollectgarbage c) := by
  have asked : Stays N m (Course.lift (.ask (.collect m.state))) fun _ => True :=
    .lift ⟨trivial, fun _ => trivial⟩
  unfold runCollectgarbage
  extract_lets rest
  have going (option : Bytes) : m.Remains N (rest option) := by
    unfold rest
    split
    · exact .after asked fun _ => .pure rfl
    · exact .after asked fun _ => .pure rfl
    all_goals first
      | exact .pure rfl
      | exact m.stays_stopArgument c _ _
  split
  · exact .after (m.stays_checkText c 1) going
  · exact going _

theorem remains_runSub : m.Remains N (m.runSub c) :=
  .after (m.stays_checkText c _) fun _ => .after (m.stays_checkInt c _) fun _ =>
    .after (m.stays_optInt c _ _) fun _ => .pure rfl

theorem remains_runRep : m.Remains N (m.runRep c) := by
  refine .after (m.stays_checkText c _) fun text => .after (m.stays_checkInt c _) fun n => ?_
  extract_lets count rest
  have going (separator : Bytes) : m.Remains N (rest separator) := by
    unfold rest
    dsimp only
    split
    · exact m.stays_stop c _
    · split
      · exact m.stays_stopInside c _
      · split <;> exact .pure rfl
  split
  · exact .after (m.stays_checkText c _) going
  · exact going []

theorem remains_runMatch : m.Remains N (m.runMatch c) := by
  refine .after (m.stays_checkText c _) fun text => .after (m.stays_checkText c _) fun pattern => ?_
  refine .after (m.stays_optInt c _ _) fun start => ?_
  extract_lets first
  split
  · exact .pure rfl
  · split
    · exact .pure rfl
    · exact .pure rfl
    · exact m.stays_stop c _

theorem remains_runFloor : m.Remains N (m.runFloor c) := by
  unfold runFloor
  split
  · exact .pure rfl
  · split
    · exact .pure rfl
    · exact m.stays_stopType c _ _

theorem origin_refuse (wrapped : Bool) (message : String) :
    (m.refuse c wrapped message).origin = m.origin := by
  unfold refuse
  split <;> rfl

/-- The coroutine that resumes another one waits for it, so the task comes back to it. -/
theorem leaves_switchTo (r : Ref) (wrapped : Bool) : m.Leaves N (m.switchTo c r wrapped) := by
  refine .after (scripted_updateThread _ _) fun _ => .after (scripted_updateThread _ _) fun _ => ?_
  refine .next rfl fun _ => .pure ?_
  cases callers : m.callers with
  | nil => simp [origin, callers]
  | cons caller rest => simp [origin, callers, List.getLast?_cons]

theorem leaves_resumeThread (r : Ref) (args : List Datum) (wrapped : Bool) :
    m.Leaves N (m.resumeThread c r args wrapped) := by
  refine .next trivial fun progress => ?_
  split
  · exact .bind (m.leaves_switchTo c r wrapped) fun _ same => .pure same
  · exact .bind (m.leaves_switchTo c r wrapped) fun _ same => .pure same
  · exact .pure (m.origin_refuse c _ _)
  · exact .pure (m.origin_refuse c _ _)

theorem remains_runClose : m.Remains N (m.runClose c) := by
  refine .after (m.stays_checkThread c _) fun r => .next trivial fun found => ?_
  have closing : Stays N m (Course.lift (updateThread r fun t => { t with progress := .ended none }))
      fun _ => True :=
    .lift (scripted_updateThread _ _)
  split
  · exact .after closing fun _ => .pure rfl
  · exact .after closing fun _ => .pure rfl
  · exact .after closing fun _ => .pure rfl
  · exact m.stays_stop c _

theorem remains_runYield : m.Remains N (m.runYield c) := by
  unfold runYield
  split
  · exact .pure rfl
  · refine .next trivial fun isMain => ?_
    split <;> exact m.stays_stopInside c _

theorem remains_runIsYieldable : m.Remains N (m.runIsYieldable c) := by
  unfold runIsYieldable
  split
  · split
    · exact .pure rfl
    · exact .next trivial fun _ => .pure rfl
  · exact m.stays_stopType c _ _
  · exact .pure rfl

/-- A function of the standard library goes on within the task. -/
theorem remains_runStandard : m.Remains N (m.runStandard c) := by
  obtain ⟨function, args, form⟩ := c
  cases function with
  | print =>
    cases args with
    | nil => exact .next trivial fun _ => .pure rfl
    | cons d rest => exact .lift (((m.push _).push _).leaves_showDatum _ _)
  | type => exact .after (m.stays_checkAny _ _) fun _ => .pure rfl
  | tostring =>
    exact .after (m.stays_checkAny _ _) fun _ => .lift ((m.push _).leaves_showDatum _ _)
  | tonumber => exact m.remains_runTonumber _
  | rawequal =>
    exact .after (m.stays_checkAny _ _) fun _ => .after (m.stays_checkAny _ _) fun _ => .pure rfl
  | rawlen => exact m.remains_runRawlen _
  | rawget =>
    exact .after (m.stays_checkTable _ _) fun _ => .after (m.stays_checkAny _ _) fun _ =>
      .next trivial fun _ => .pure rfl
  | rawset =>
    refine .after (m.stays_checkTable _ _) fun r => .after (m.stays_checkAny _ _) fun key => ?_
    refine .after (m.stays_checkAny _ _) fun value => ?_
    refine .bind (.lift ((m.push _).leaves_rawAssign _ _ _ _)) fun done same => ?_
    split
    · exact .pure rfl
    · exact .pure same
  | next => exact m.remains_runNext _
  | pairs => exact m.remains_runPairs _
  | ipairs =>
    exact .after (m.stays_checkAny _ _) fun _ => .after (m.stays_newFunction _) fun _ => .pure rfl
  | ipairsStep => exact m.remains_runIpairsStep _
  | select => exact m.remains_runSelect _
  | assert => exact m.remains_runAssert _
  | error => exact m.remains_runError _
  | pcall => exact .after (m.stays_checkAny _ _) fun _ => .pure rfl
  | xpcall => exact .after (m.stays_checkFunction _ _) fun _ => .pure rfl
  | setmetatable => exact m.remains_runSetmetatable _
  | getmetatable => exact .after (m.stays_checkAny _ _) fun _ => .next trivial fun _ => .pure rfl
  | collectgarbage => exact m.remains_runCollectgarbage _
  | coroutineCreate =>
    exact .after (m.stays_checkFunction _ _) fun _ => .next rfl fun _ => .pure rfl
  | coroutineWrap =>
    exact .after (m.stays_checkFunction _ _) fun _ => .next rfl fun _ =>
      .after (m.stays_newFunction _) fun _ => .pure rfl
  | coroutineResume =>
    exact .after (m.stays_checkThread _ _) fun _ => .lift (m.leaves_resumeThread _ _ _ _)
  | coroutineWrapped => exact .lift (m.leaves_resumeThread _ _ _ _)
  | coroutineYield => exact m.remains_runYield _
  | coroutineStatus =>
    exact .after (m.stays_checkThread _ _) fun _ => .next trivial fun _ => .pure rfl
  | coroutineIsYieldable => exact m.remains_runIsYieldable _
  | coroutineRunning => exact .next trivial fun _ => .pure rfl
  | coroutineClose => exact m.remains_runClose _
  | stringSub => exact m.remains_runSub _
  | stringRep => exact m.remains_runRep _
  | stringMatch => exact m.remains_runMatch _
  | mathFloor => exact m.remains_runFloor _
  | host | member => exact .pure rfl
  | missing => exact m.stays_stop _ _

section Steps

theorem leaves_enter (closure : Closure) (args : List Datum) (form : CallForm) :
    m.Leaves N (m.enter closure args form) :=
  .after (m.scripted_declare _ _ _) fun _ => .pure rfl

theorem leaves_callNative (form : CallForm) {body : Action CallbackResult}
    (native : OfNative N m.state body) : m.Leaves N (m.callNative form body) := by
  have placed (lines : List String) : (m.withPlace lines body).Scripted N m.state fun _ => True :=
    .next rfl fun _ => .after (scripted_updateThread _ _) fun _ => .after (.attempt native) fun _ =>
      .next trivial fun _ => .after (scripted_updateThread _ _) fun _ => .pure trivial
  refine .next trivial fun lines => .after (placed _) fun ended => ?_
  split
  · exact .next rfl fun _ => .pure rfl
  · exact .pure rfl

theorem leaves_enterCall (f : Callee) {args : List Datum} (given : N args) (form : CallForm) :
    m.Leaves N (m.enterCall f args form) := by
  cases f with
  | member event => exact m.leaves_callNative form (.member event given)
  | datum d =>
    refine .next trivial fun cell => ?_
    split
    · exact m.leaves_enter _ args form
    · exact m.leaves_callNative form (.host _ given)
    · exact m.leaves_callNative form (.member _ given)
    · exact (m.remains_runStandard _).finish
    · refine .next trivial fun handler => ?_
      split
      · exact .pure rfl
      · exact m.leaves_failOn _ _ _ _

theorem leaves_deliver (k : Kont) (values : List Datum) : m.Leaves N (m.deliver k values) := by
  cases k with
  | gather done rest env use =>
    cases rest with
    | nil => exact m.leaves_finish env use _
    | cons => exact .pure rfl
  | choose =>
    simp only [deliver]
    split <;> exact .pure rfl
  | methodFound object name args env line isTail =>
    cases args with
    | nil => exact m.leaves_finish env (.call (some ⟨"method", name⟩) line isTail) _
    | cons => exact .pure rfl
  | stores pending env line => exact m.leaves_store env pending line
  | integers name current left step body env =>
    cases left with
    | zero => exact .pure rfl
    | succ n => exact (m.push _).leaves_loopBlock env _ _ _
  | floats => exact m.leaves_runFloats _ _ _ _ _ _
  | iterator names f state body env line =>
    simp only [deliver]
    split
    · exact .pure rfl
    · exact .after (m.scripted_declare _ _ _) fun _ => .pure rfl
  | text =>
    simp only [deliver]
    split <;> exact .pure rfl
  | printing done rest =>
    cases rest with
    | nil => exact .next trivial fun _ => .pure rfl
    | cons d rest => exact (m.push _).leaves_showDatum _ _
  | _ => exact .pure rfl

end Steps

/-- Whether a machine is one of the same task, if the task goes on at all. -/
def Onward : Next → Prop
  | .continue m' => m'.origin = m.origin
  | .done _ => True

theorem onward_handOver {progress : Progress} {caller : Ref} {konts : List Kont}
    {callers : List (Ref × List Kont)} (waiting : m.callers = (caller, konts) :: callers) :
    m.Leaves N (m.handOver progress caller konts callers) := by
  refine .after (scripted_updateThread _ _) fun _ => .after (scripted_updateThread _ _) fun _ => ?_
  refine .next rfl fun _ => .pure ?_
  rw [origin, origin, waiting, List.getLast?_cons]
  cases callers.getLast? <;> rfl

theorem onward_endTask (progress : Progress) (outcome : Outcome) :
    (m.endTask progress outcome).Scripted N m.state m.Onward := by
  unfold endTask
  split
  · exact .after (scripted_updateThread _ _) fun _ => .pure trivial
  · exact .pure trivial

theorem onward_complete (progress : Progress) (values : List Datum) :
    (m.complete progress values).Scripted N m.state m.Onward := by
  unfold complete
  split
  · exact m.onward_endTask _ _
  · exact .bind (m.onward_handOver ‹_›) fun _ same => .pure same

theorem origin_receiveFailure (e : Datum) : (m.receiveFailure e).origin = m.origin := by
  unfold receiveFailure
  split <;> rfl

theorem onward_uncaught (e : Datum) (site : Option Site) :
    (m.uncaught e site).Scripted N m.state m.Onward := by
  unfold uncaught
  split
  · refine .bind (m.onward_handOver ‹_›) fun m' same => .pure ?_
    exact (m'.origin_receiveFailure e).trans same
  · split
    · exact m.onward_endTask _ _
    · refine .next trivial fun lines => ?_
      have shown := leaves_showDatum (N := N) { m with konts := [.report (traceText lines)] } e none
      exact shown.map fun _ same => same

theorem onward_catchFailure (e : Datum) (site : Option Site) :
    (m.catchFailure e site).Scripted N m.state m.Onward := by
  unfold catchFailure
  split
  case h_5 => exact m.onward_uncaught e site
  all_goals exact .pure rfl

/-- A step calls native code with the arguments that are there. -/
theorem supplied_step (given : ∀ f args form, m.control = .call f args form → N args) :
    m.step.Scripted N m.state m.Onward := by
  unfold step
  split
  · exact .map (m.leaves_evaluateExpr _ _) fun _ same => same
  · exact .pure rfl
  · exact .map (m.leaves_executeStmt _ _ _) fun _ same => same
  · split
    · exact m.onward_complete _ _
    · exact m.onward_endTask _ _
    · rename_i values _ _ _ k rest _ _
      have delivered := leaves_deliver (N := N) { m with konts := rest } k values
      exact delivered.map fun _ same => same
  · exact .pure rfl
  · exact .pure rfl
  · rename_i f args form called
    exact .map (m.leaves_enterCall f (given f args form called) form) fun _ same => same
  · exact m.onward_catchFailure _ _
  · exact m.onward_complete _ _

/-- A step fails with no error, and stays within the task. -/
theorem onward_step : m.step.Scripted (fun _ => True) m.state m.Onward :=
  m.supplied_step fun _ _ _ _ => trivial

/-- A machine fails only by not coming to an end. -/
theorem scripted_run {s : StateId} (state : m.state = s) (n : Nat) :
    (m.run n).Scripted (fun _ => True) s fun _ => True := by
  subst state
  induction n generalizing m with
  | zero => rfl
  | succ n ih =>
    refine .bind m.onward_step fun next onward => ?_
    cases next with
    | «continue» m' =>
      have same : m'.state = m.state := congrArg Prod.fst onward
      exact same ▸ ih m'
    | done => exact .pure trivial

end Machine

section Tasks

variable {s : StateId}

theorem scripted_start (thread : Ref) (control : Control) (isResumed : Bool) :
    (start s thread control isResumed).Scripted (fun _ => True) s fun _ => True :=
  Machine.scripted_run _ (by rfl) stepLimit

theorem scripted_startHere (control : Control) :
    (startHere s control).Scripted (fun _ => True) s fun _ => True := by
  refine .next trivial fun found => ?_
  split
  · exact scripted_start _ _ _
  · exact .pure trivial

theorem scripted_runPrepared {prepare : Machine → Action Machine}
    (leaves : ∀ m : Machine, m.Leaves (fun _ => True) (prepare m)) :
    (runPrepared s prepare).Scripted (fun _ => True) s fun _ => True := by
  refine .next trivial fun found => ?_
  split
  · rename_i thread
    refine .bind (leaves ⟨s, thread, .give [], [], [], false⟩) fun m' same => ?_
    exact m'.scripted_run (congrArg Prod.fst same) stepLimit
  · exact .pure trivial

theorem scripted_resumeAt (r : Ref) (konts : List Kont) (control : Control) :
    (resumeAt s r konts control).Scripted (fun _ => True) s fun _ => True := by
  refine .next trivial fun previous => .after (scripted_updateThread _ _) fun _ => ?_
  refine .next rfl fun _ => .after (Machine.scripted_run _ (by rfl) stepLimit) fun outcome => ?_
  exact .next rfl fun _ => .pure trivial

theorem scripted_resume (r : Ref) (args : List Datum) :
    (resume s r args).Scripted (fun _ => True) s fun _ => True := by
  refine .next trivial fun progress => ?_
  split
  · exact scripted_resumeAt _ _ _
  · exact scripted_resumeAt _ _ _
  · exact .after (scripted_updateThread _ _) fun _ => .pure trivial
  · exact .pure trivial

theorem scripted_runChunk (name source : Bytes) (args : List Datum) :
    (runChunk s name source args).Scripted (fun _ => True) s fun _ => True := by
  unfold runChunk
  split
  · exact .pure trivial
  · split
    · exact .pure trivial
    · exact .next rfl fun r => scripted_startHere _

/-- What an engine does for a task of a state. -/
theorem scripted_runTask (task : Task) : (runTask s task).Scripted (fun _ => True) s fun _ => True := by
  cases task with
  | call => exact scripted_startHere _
  | resume => exact scripted_resume _ _
  | index => exact scripted_runPrepared fun m => m.leaves_index _ _ _ _
  | assign => exact scripted_runPrepared fun m => m.leaves_assign _ _ _ _ _
  | chunk => exact scripted_runChunk _ _ _

end Tasks

end ScriptBridge.Script
