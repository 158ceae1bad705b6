import ScriptBridge.Script.Builtin
import ScriptBridge.Script.Chunk

/-!
What running scripts consist of: frames that wait for values, coroutines, and the cells of an
engine's heap.
-/

namespace ScriptBridge.Script

/-- A place in running code. -/
structure Site where
  chunk : Bytes
  line : Nat
deriving DecidableEq, Repr

/-- What a piece of code sees: its variables by name, the newest first, the further arguments of its
function, and the chunk that it stands in. -/
structure Env where
  vars : List (String × Ref)
  varargs : List Datum
  chunk : Bytes

/-- The name that messages give to an operand. -/
structure Described where
  kind : String
  name : String
deriving DecidableEq, Repr

/-- The place and the manner of a call. -/
structure CallForm where
  site : Option Site := none
  callee : Option Described := none
  /-- The result of the call is the result of the calling function. -/
  isTail : Bool := false

/-- Where an assignment goes. -/
inductive Place where
  | var (r : Ref)
  | global (name : String)
  | field (object key : Datum) (object? : Option Described)

/-- How an item of a table constructor takes its values. -/
inductive Slot where
  | positional
  | keyed
deriving DecidableEq, Repr

/-- The form of an assignment's target; the parts of a field come as values. -/
inductive TargetForm where
  | var (name : String)
  | global (name : String)
  | field (object? : Option Described)

/-- What happens with the values of a list of expressions. -/
inductive Use where
  | binary (op : BinaryOp) (left right : Option Described) (line : Nat)
  | unary (op : UnaryOp) (operand : Option Described) (line : Nat)
  | index (object? : Option Described) (line : Nat)
  /-- The values are a function and its arguments. -/
  | call (callee : Option Described) (line : Nat) (isTail : Bool)
  /-- The value is the object of a method call. -/
  | method (object? : Option Described) (name : String) (args : List Expr) (line : Nat)
    (isTail : Bool)
  | table (slots : List Slot) (line : Nat)
  | locals (names : List String) (rest : List Stmt)
  | assign (targets : List TargetForm) (line : Nat)
  | returns
  /-- The values do not matter. -/
  | discard
  | leaveIf (sense : Bool)
  | conditional (thenBody elseBody : List Stmt)
  | numericFor (name : String) (body : List Stmt) (line : Nat)
  | genericFor (names : List String) (body : List Stmt) (line : Nat)

/-- A frame waits for values or for the end of a statement. -/
inductive Kont where
  /-- Collects the values of expressions, newest first; all but the last give one value. -/
  | gather (done : List Datum) (rest : List Expr) (env : Env) (use : Use)
  /-- Has the left operand of `and` or `or` evaluated. -/
  | choose (isAnd : Bool) (right : Expr) (env : Env)
  /-- Takes the first value. -/
  | single
  /-- Takes the truth of the first value, or its opposite. -/
  | truth (negated : Bool)
  /-- Has the function of a method call looked up. -/
  | methodFound (object : Datum) (name : String) (args : List Expr) (env : Env) (line : Nat)
    (isTail : Bool)
  /-- Goes on with the assignments that are left. -/
  | stores (pending : List (Place × Datum)) (env : Env) (line : Nat)
  /-- Goes on with the statements of a block. -/
  | block (rest : List Stmt) (env : Env)
  | loop (body : List Stmt) (env : Env)
  /-- A loop over integers: the current one, how many follow, the step. -/
  | integers (name : String) (current : Int64) (left : Nat) (step : Int64) (body : List Stmt)
    (env : Env)
  | floats (name : String) (current limit step : Double) (body : List Stmt) (env : Env)
  /-- A loop over what an iterator gives, while the body runs. -/
  | iterations (names : List String) (iterator state control : Datum) (body : List Stmt)
    (env : Env) (line : Nat)
  /-- The same while the iterator runs. -/
  | iterator (names : List String) (iterator state : Datum) (body : List Stmt) (env : Env)
    (line : Nat)
  /-- The end of a function that runs: where it was called, and how traces show it. -/
  | activation (caller : Option Site) (title : String)
  /-- A function of the library that waits for what it has called; it cannot be suspended. -/
  | builtin (caller : Option Site) (title : String)
  | protectedCall (caller : Option Site)
  | handledCall (handler : Datum) (caller : Option Site)
  /-- A handler of a failure runs; `left` more failures of its own are handed to it. -/
  | handling (handler : Datum) (left : Nat) (caller : Option Site)
  /-- A text was asked for: the value must be a string. -/
  | text (caller : Option Site)
  /-- Prints the texts that are done, newest first, this one, and the values that are left. -/
  | printing (done : List Bytes) (rest : List Datum)
  /-- Takes three values from a `__pairs` metamethod. -/
  | triple (caller : Option Site)
  /-- A step of `ipairs`: the value at an index. -/
  | ipairsValue (i : Int64)
  /-- Waits for a coroutine; `wrapped` hands its failures on. -/
  | resumed (wrapped : Bool) (caller : Option Site)
  /-- Waits for the text of a failure that leaves the machine. -/
  | report (trace : String)

/-- What a native function that waits keeps on the stack of its coroutine for the case that it
fails. -/
inductive Reserve where
  /-- Nothing: the place is kept elsewhere. -/
  | pooled
  /-- A place on the stack. -/
  | stacked
  /-- A place on the stack that has been lost since. -/
  | lost
deriving DecidableEq, Repr

/-- A native function that waits, and the stack of the coroutine from it on, line by line. -/
structure Waiting where
  reserve : Reserve
  trace : List String := []

/-- How far a coroutine is. -/
inductive Progress where
  | fresh (body : Datum)
  | suspended (konts : List Kont)
  /-- It runs, or waits for what it has called. -/
  | active
  /-- It has ended; a failure that ended it is kept until it is closed. -/
  | ended (failure : Option Datum)

structure Thread where
  progress : Progress
  /-- Whether the bridge has ever resumed it. -/
  resumed : Bool := false
  /-- The native functions in it that wait, the innermost first. -/
  waiting : List Waiting := []

structure Closure where
  body : FunctionBody
  vars : List (String × Ref)
  chunk : Bytes

/-- What is at a place of the heap. -/
inductive Cell where
  | variable (value : Datum)
  | table (content : Table) (metatable : Option Ref)
  | closure (c : Closure)
  | builtin (b : Builtin)
  | thread (t : Thread)
  /-- A userdata that holds a native object. -/
  | native (n : Nat)
  /-- A userdata of the standard library, an open file. -/
  | file
deriving Inhabited

end ScriptBridge.Script
