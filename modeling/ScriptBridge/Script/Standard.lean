import ScriptBridge.Script.Library
import ScriptBridge.Script.Operation
import ScriptBridge.Script.Pattern

/-!
The functions of the standard library. They check their arguments one after another; what a function
calls runs in frames of the machine.
-/

namespace ScriptBridge.Script

/-- A call of a library function. -/
structure Invocation where
  function : Builtin
  args : List Datum
  form : CallForm

/-- The course of a library function; it may end early with a machine that fails. -/
abbrev Course := ExceptT Machine Action

namespace Course

def finish (c : Course Machine) : Action Machine := do
  match ← c.run with
  | .ok m | .error m => pure m

def lift (a : Action α) : Course α := ExceptT.lift a

end Course

namespace Invocation

def arg? (c : Invocation) (n : Nat) : Option Datum := c.args[n - 1]?

def arg (c : Invocation) (n : Nat) : Datum := (c.arg? n).getD .nil

/-- The name of the function in complaints: as the call has it, or else as the library has it. -/
def name (c : Invocation) : String :=
  match c.form.callee with
  | some d => d.name
  | none => c.function.path?.getD "?"

/-- The function in traces. -/
def title (c : Invocation) : String :=
  match c.function.path? with
  | some path => s!"function '{path}'"
  | none => Described.title c.form.callee "?"

/-- The complaint about an argument; the object of a method call does not count as one. -/
def complaint (c : Invocation) (n : Nat) (extra : String) : String :=
  let isMethod := (c.form.callee.map (·.kind)) == some "method"
  if isMethod && n = 1 then s!"calling '{c.name}' on bad self ({extra})"
  else
    let position := if isMethod then n - 1 else n
    s!"bad argument #{position} to '{c.name}' ({extra})"

end Invocation

namespace Machine

variable (m : Machine) (c : Invocation)

def stop (message : String) : Course α := throw (m.fail c.form.site message)

/-- Fails in the function itself, with a message that names no place. -/
def stopInside (message : String) : Course α :=
  throw ((m.push (.builtin c.form.site c.title)).fail none message)

def stopArgument (n : Nat) (extra : String) : Course α := m.stop c (c.complaint n extra)

def stopType (n : Nat) (expected : String) : Course α := do
  let found ← match c.arg? n with
    | some d => Course.lift (.view fun w => w.typeNameIn m.state d)
    | none => pure "no value"
  m.stopArgument c n s!"{expected} expected, got {found}"

def checkAny (n : Nat) : Course Datum :=
  match c.arg? n with
  | some d => pure d
  | none => m.stopArgument c n "value expected"

def checkTable (n : Nat) : Course Ref :=
  match c.arg? n with
  | some (.table r) => pure r
  | _ => m.stopType c n "table"

def checkFunction (n : Nat) : Course Datum :=
  match c.arg? n with
  | some (.function r) => pure (.function r)
  | _ => m.stopType c n "function"

def checkThread (n : Nat) : Course Ref :=
  match c.arg? n with
  | some (.thread r) => pure r
  | _ => m.stopType c n "coroutine"

def checkText (n : Nat) : Course Bytes :=
  match (c.arg? n).bind Datum.asText with
  | some s => pure s
  | none => m.stopType c n "string"

def checkInt (n : Nat) : Course Int :=
  match c.arg? n with
  | none => m.stopType c n "number"
  | some d =>
    match d.asInt with
    | some i => pure i.toInt
    | none =>
      if d.asNumber.isSome then m.stopArgument c n "number has no integer representation"
      else m.stopType c n "number"

def isGiven (n : Nat) : Bool := !(c.arg n).isNil

def optInt (n : Nat) (default : Int) : Course Int :=
  if isGiven c n then m.checkInt c n else pure default

/-- The site of a level of the stack: level one is the caller of the library function. -/
def levelSite (level : Int) : Option Site :=
  if level = 1 then c.form.site
  else if 2 ≤ level then (m.callers?[(level - 2).toNat]?).join
  else none

/-- Fails with a datum; a string is given the position of a level of the stack. -/
def raiseAt (e : Datum) (level : Int) : Machine :=
  match e with
  | .text s =>
    if 0 < level then m.raise (.text (Site.text (m.levelSite c level) ++ s)) c.form.site
    else m.raise e c.form.site
  | e => m.raise e c.form.site

def runAssert : Course Machine :=
  match c.args with
  | [] => m.stopArgument c 1 "value expected"
  | v :: rest =>
    pure (if v.isTrue then m.give c.args
      else m.raiseAt c (rest.headD (.str "assertion failed!")) 1)

def runError : Course Machine := do
  let level ← m.optInt c 2 1
  pure (m.raiseAt c (c.arg 1) level)

def runSelect : Course Machine :=
  let count : Int := (c.args.length : Int) - 1
  match c.arg? 1 with
  | some (.text (0x23 :: _)) => pure (m.give [.int (Int64.ofInt count)])
  | _ => do
    let n ← m.checkInt c 1
    if 0 < n then pure (m.give (c.args.drop n.toNat))
    else if n < 0 && -n ≤ count then pure (m.give (c.args.drop (count + 1 + n).toNat))
    else m.stopArgument c 1 "index out of range"

def digitIn (base : Nat) (c : Char) : Option Nat :=
  let value :=
    if Numeral.isDigit c then some (c.toNat - '0'.toNat)
    else if 'a' ≤ c ∧ c ≤ 'z' then some (c.toNat - 'a'.toNat + 10)
    else if 'A' ≤ c ∧ c ≤ 'Z' then some (c.toNat - 'A'.toNat + 10)
    else none
  value.filter (· < base)

/-- The integer that a text denotes in a base. -/
def readInBase (base : Nat) (s : Bytes) : Datum :=
  let text := Numerals.trim (s.map fun b => Char.ofNat b.toNat)
  let (negative, digits) := match text with
    | '-' :: rest => (true, rest)
    | rest => (false, rest)
  match digits.mapM (digitIn base) with
  | some (d :: rest) =>
    let i := Int64.ofNat ((d :: rest).foldl (fun n k => base * n + k) 0)
    .int (if negative then -i else i)
  | _ => .nil

def runTonumber : Course Machine :=
  if isGiven c 2 then do
    let base ← m.checkInt c 2
    match c.arg? 1 with
    | some (.text s) =>
      if 2 ≤ base ∧ base ≤ 36 then pure (m.give [readInBase base.toNat s])
      else m.stopArgument c 2 "base out of range"
    | _ => m.stopType c 1 "string"
  else do
    let d ← m.checkAny c 1
    pure (m.give [d.asNumber.getD .nil])

def runNext : Course Machine := do
  let r ← m.checkTable c 1
  let content ← Course.lift (.view (·.tableAt r))
  match content.next (c.arg 2) with
  | some (some (k, v)) => pure (m.give [k, v])
  | some none => pure (m.give [.nil])
  | none => m.stopInside c "invalid key to 'next'"

def newFunction (b : Builtin) : Course Datum := do
  pure (.function (← Course.lift (m.allocate (.builtin b))))

def runPairs : Course Machine := do
  let d ← m.checkAny c 1
  match ← Course.lift (m.metamethod d "__pairs") with
  | some f => pure ((m.push (.triple c.form.site)).call f [d] {})
  | none => pure (m.give [← m.newFunction .next, d, .nil])

def runIpairsStep : Course Machine := do
  let i ← m.checkInt c 2
  let next := Int64.ofInt (i + 1)
  let m := (m.push (.builtin c.form.site c.title)).push (.ipairsValue next)
  Course.lift (m.index (c.arg 1) (.int next) none none)

def runSetmetatable : Course Machine := do
  let r ← m.checkTable c 1
  let metatable ← match c.arg? 2 with
    | some .nil => pure none
    | some (.table t) => pure (some t)
    | _ => m.stopType c 2 "nil or table"
  if !(← Course.lift (.view fun w => w.metafield m.state (.table r) "__metatable")).isNil then
    m.stop c "cannot change a protected metatable"
  else
    let content ← Course.lift (.view (·.tableAt r))
    Course.lift (.perform (.write r (.table content metatable)))
    pure (m.give [.table r])

def metatableShown (w : World) (s : StateId) (d : Datum) : Datum :=
  match d with
  | .failure _ => .bool false
  | d =>
    if w.isNative d then .bool false
    else match w.metafield s d "__metatable" with
      | .nil => ((w.metatableOf s d).map Datum.table).getD .nil
      | shown => shown

def runRawlen : Course Machine :=
  match c.arg? 1 with
  | some (.text s) => pure (m.give [.int (Int64.ofNat s.length)])
  | some (.table r) => do
    let n ← Course.lift (.view fun w => (w.tableAt r).length)
    pure (m.give [.int (Int64.ofNat n)])
  | _ => m.stopType c 1 "table or string"

/-- An engine collects only when it is asked to. -/
def runCollectgarbage : Course Machine := do
  let option ← if isGiven c 1 then m.checkText c 1 else pure (Bytes.ofString "collect")
  match option.toText with
  | "collect" => do
    Course.lift (.ask (.collect m.state))
    pure (m.give [.int 0])
  | "step" => do
    Course.lift (.ask (.collect m.state))
    pure (m.give [.bool true])
  | "stop" | "restart" => pure (m.give [.int 0])
  | "count" => pure (m.give [.float (.ofInt 32)])
  | "isrunning" => pure (m.give [.bool false])
  | "setpause" => pure (m.give [.int 200])
  | "setstepmul" => pure (m.give [.int 100])
  | "generational" | "incremental" => pure (m.give [.str "incremental"])
  | other => m.stopArgument c 1 s!"invalid option '{other}'"

/-- A place of a string counted from one, or from the end if it is negative. -/
def startPlace (i : Int) (length : Nat) : Nat :=
  if 0 < i then i.toNat else if i = 0 then 1 else if -i > length then 1 else (length + i + 1).toNat

def endPlace (j : Int) (length : Nat) : Nat :=
  if j > length then length else if 0 ≤ j then j.toNat
  else if -j > length then 0 else (length + j + 1).toNat

def runSub : Course Machine := do
  let s ← m.checkText c 1
  let start := startPlace (← m.checkInt c 2) s.length
  let last := endPlace (← m.optInt c 3 (-1)) s.length
  pure (m.give [.text ((s.take last).drop (start - 1))])

/-- The longest string that repetition makes. -/
def maxLength : Nat := 100000000

def runRep : Course Machine := do
  let s ← m.checkText c 1
  let n := (← m.checkInt c 2).toNat
  let separator ← if isGiven c 3 then m.checkText c 3 else pure []
  let piece := s.length + separator.length
  if 0 < n ∧ Int64.maxValue.toInt.toNat / n < piece then m.stop c "resulting string too large"
  else if maxLength < n * piece then m.stopInside c "not enough memory"
  else if n = 0 then pure (m.give [.text []])
  else
    let rest := (List.replicate (n - 1) (separator ++ s)).flatten
    pure (m.give [.text (s ++ rest)])

def runMatch : Course Machine := do
  let s ← m.checkText c 1
  let pattern ← m.checkText c 2
  let start := startPlace (← m.optInt c 3 1) s.length
  if s.length + 1 < start then pure (m.give [.nil])
  else match Pattern.find s pattern (start - 1) with
    | .ok (some found) => pure (m.give found)
    | .ok none => pure (m.give [.nil])
    | .error defect => m.stop c defect.message

def runFloor : Course Machine :=
  match c.arg? 1 with
  | some (.int i) => pure (m.give [.int i])
  | d =>
    match d.bind Datum.asFloat with
    | some x =>
      let whole := x.floor
      pure (m.give [match whole.toInt64? with
        | some i => .int i
        | none => .float whole])
    | none => m.stopType c 1 "number"

/-- Hands a coroutine that cannot be resumed back to the caller. -/
def refuse (wrapped : Bool) (message : String) : Machine :=
  if wrapped then m.fail c.form.site message
  else m.give [.bool false, .str message]

/-- Goes on in a coroutine; the one that runs waits for it. -/
def switchTo (r : Ref) (wrapped : Bool) : Action Machine := do
  updateThread r fun t => { t with progress := .active }
  updateThread m.thread fun t =>
    { t with waiting := ⟨if wrapped then .pooled else .stacked, []⟩ :: t.waiting }
  .perform (.setRunning m.state r)
  pure { m with
    thread := r
    konts := []
    callers := (m.thread, .resumed wrapped c.form.site :: m.konts) :: m.callers }

def resumeThread (r : Ref) (args : List Datum) (wrapped : Bool) : Action Machine := do
  match ← .view (·.progressOf r) with
  | some (.fresh body) => do
    let m ← m.switchTo c r wrapped
    pure (m.call (.datum body) args {})
  | some (.suspended konts) => do
    let m ← m.switchTo c r wrapped
    pure ({ m with konts := konts }.give args)
  | some .active => pure (m.refuse c wrapped "cannot resume non-suspended coroutine")
  | _ => pure (m.refuse c wrapped "cannot resume dead coroutine")

/-- The state of a coroutine as scripts see it. -/
def statusOf (w : World) (r : Ref) : String :=
  if r = m.thread then "running"
  else match w.progressOf r with
    | some (.fresh _) | some (.suspended _) => "suspended"
    | some .active => "normal"
    | _ => "dead"

def runClose : Course Machine := do
  let r ← m.checkThread c 1
  match ← Course.lift (.view fun w => (m.statusOf w r, w.progressOf r)) with
  | ("suspended", _) | ("dead", some (.ended none)) => do
    Course.lift (updateThread r fun t => { t with progress := .ended none })
    pure (m.give [.bool true])
  | ("dead", some (.ended (some e))) => do
    Course.lift (updateThread r fun t => { t with progress := .ended none })
    pure (m.give [.bool false, e])
  | (status, _) => m.stop c s!"cannot close a {status} coroutine"

def isMain : Course Bool :=
  Course.lift (.view fun w => ((w.engine? m.state).map (·.main)) == some m.thread)

def runYield : Course Machine := do
  if m.canSuspend then pure { m with control := .suspend c.args }
  else if ← m.isMain then m.stopInside c "attempt to yield from outside a coroutine"
  else m.stopInside c "attempt to yield across a C-call boundary"

def runIsYieldable : Course Machine :=
  match c.arg? 1 with
  | some (.thread r) =>
    if r = m.thread then pure (m.give [.bool m.canSuspend])
    else do
      let main ← Course.lift (.view fun w => (w.engine? m.state).map (·.main))
      pure (m.give [.bool (main != some r)])
  | some _ => m.stopType c 1 "coroutine"
  | none => pure (m.give [.bool m.canSuspend])

/-- Runs a function of the standard library. -/
def runStandard : Course Machine :=
  match c.function with
  | .print =>
    match c.args with
    | [] => do
      Course.lift (.perform (.print ""))
      pure (m.give [])
    | d :: rest =>
      Course.lift
        (((m.push (.builtin c.form.site c.title)).push (.printing [] rest)).showDatum d none)
  | .type => do pure (m.give [.str (← m.checkAny c 1).typeName])
  | .tostring => do
    let d ← m.checkAny c 1
    Course.lift ((m.push (.builtin c.form.site c.title)).showDatum d c.form.site)
  | .tonumber => m.runTonumber c
  | .rawequal => do
    let a ← m.checkAny c 1
    let b ← m.checkAny c 2
    pure (m.give [.bool (a.rawEq b)])
  | .rawlen => m.runRawlen c
  | .rawget => do
    let r ← m.checkTable c 1
    let key ← m.checkAny c 2
    pure (m.give [(← Course.lift (.view (·.tableAt r))).get key])
  | .rawset => do
    let r ← m.checkTable c 1
    let key ← m.checkAny c 2
    let value ← m.checkAny c 3
    let inside := m.push (.builtin c.form.site c.title)
    let done ← Course.lift (inside.rawAssign r key value none)
    match done.control with
    | .give _ => pure (m.give [.table r])
    | _ => pure done
  | .next => m.runNext c
  | .pairs => m.runPairs c
  | .ipairs => do
    let d ← m.checkAny c 1
    pure (m.give [← m.newFunction .ipairsStep, d, .int 0])
  | .ipairsStep => m.runIpairsStep c
  | .select => m.runSelect c
  | .assert => m.runAssert c
  | .error => m.runError c
  | .pcall => do
    let f ← m.checkAny c 1
    pure ((m.push (.protectedCall c.form.site)).call (.datum f) (c.args.drop 1) {})
  | .xpcall => do
    let handler ← m.checkFunction c 2
    pure ((m.push (.handledCall handler c.form.site)).call (.datum (c.arg 1)) (c.args.drop 2) {})
  | .setmetatable => m.runSetmetatable c
  | .getmetatable => do
    let d ← m.checkAny c 1
    pure (m.give [← Course.lift (.view fun w => metatableShown w m.state d)])
  | .collectgarbage => m.runCollectgarbage c
  | .coroutineCreate => do
    let f ← m.checkFunction c 1
    pure (m.give [.thread (← Course.lift (m.allocate (.thread { progress := .fresh f })))])
  | .coroutineWrap => do
    let f ← m.checkFunction c 1
    let r ← Course.lift (m.allocate (.thread { progress := .fresh f }))
    pure (m.give [← m.newFunction (.coroutineWrapped r)])
  | .coroutineResume => do
    let r ← m.checkThread c 1
    Course.lift (m.resumeThread c r (c.args.drop 1) false)
  | .coroutineWrapped r => Course.lift (m.resumeThread c r c.args true)
  | .coroutineYield => m.runYield c
  | .coroutineStatus => do
    let r ← m.checkThread c 1
    pure (m.give [.str (← Course.lift (.view (m.statusOf · r)))])
  | .coroutineIsYieldable => m.runIsYieldable c
  | .coroutineRunning => do pure (m.give [.thread m.thread, .bool (← m.isMain)])
  | .coroutineClose => m.runClose c
  | .stringSub => m.runSub c
  | .stringRep => m.runRep c
  | .stringMatch => m.runMatch c
  | .mathFloor => m.runFloor c
  | .host _ | .member _ => pure (m.give [])
  | .missing name => m.stop c s!"'{name}' is not available"

end Machine

end ScriptBridge.Script
