import ScriptBridge.Script.Datum

/-!
Parsed scripts. Variables are resolved: a name is a variable of the function itself, one of an
enclosing function, or a global. A function lists the outer variables that it uses.
-/

namespace ScriptBridge.Script

inductive BinaryOp where
  | add | sub | mul | div | mod | pow | idiv
  | band | bor | bxor | shl | shr
  | concat
  | eq | ne | lt | le | gt | ge
deriving DecidableEq, Repr

inductive UnaryOp where
  | neg | not | len | bnot
deriving DecidableEq, Repr

mutual

inductive Expr where
  | nil
  | bool (b : Bool)
  | int (i : Int64)
  | float (d : Double)
  | text (s : Bytes)
  | varargs
  /-- A variable; `outer` when it belongs to an enclosing function. -/
  | var (name : String) (outer : Bool)
  | global (name : String)
  | index (object key : Expr) (line : Nat)
  | call (callee : Expr) (args : List Expr) (line : Nat)
  | method (object : Expr) (name : String) (args : List Expr) (line : Nat)
  | function (body : FunctionBody)
  | binary (op : BinaryOp) (left right : Expr) (line : Nat)
  | unary (op : UnaryOp) (operand : Expr) (line : Nat)
  | and (left right : Expr)
  | or (left right : Expr)
  /-- An expression in brackets: exactly one value. -/
  | single (e : Expr)
  | table (items : List Item) (line : Nat)

/-- An item of a table constructor: a value at the next position, or a value under a key. -/
inductive Item where
  | positional (value : Expr)
  | keyed (key value : Expr)

inductive Stmt where
  /-- A call for its effects. -/
  | call (e : Expr)
  | locals (names : List String) (values : List Expr)
  | assign (targets values : List Expr) (line : Nat)
  | localFunction (name : String) (body : FunctionBody)
  | block (body : List Stmt)
  /-- Runs its body until something leaves it. -/
  | loop (body : List Stmt)
  /-- Leaves the innermost loop if the condition is as true as `sense`. -/
  | leaveIf (condition : Expr) (sense : Bool)
  | conditional (condition : Expr) (thenBody elseBody : List Stmt)
  | numericFor (name : String) (start limit step : Expr) (body : List Stmt) (line : Nat)
  | genericFor (names : List String) (values : List Expr) (body : List Stmt) (line : Nat)
  | leave
  | returns (values : List Expr)

inductive FunctionBody where
  | mk (params : List String) (isVararg : Bool) (captures : List String) (body : List Stmt)
    (line : Nat)

end

instance : Inhabited Expr := ⟨.nil⟩

namespace FunctionBody

def params : FunctionBody → List String
  | .mk params .. => params

def isVararg : FunctionBody → Bool
  | .mk _ isVararg .. => isVararg

/-- The variables of enclosing functions that the body uses, by name. -/
def captures : FunctionBody → List String
  | .mk _ _ captures .. => captures

def body : FunctionBody → List Stmt
  | .mk _ _ _ body _ => body

def line : FunctionBody → Nat
  | .mk _ _ _ _ line => line

end FunctionBody

/-- The name by which messages refer to a chunk. A name that starts with `=` or `@` is used as it
is; any other name is quoted up to its first line. Long names are cut. -/
def chunkId (name : Bytes) : Bytes :=
  match name with
  | 0x3d :: rest => rest.take 59
  | 0x40 :: rest =>
    if rest.length + 1 < 60 then rest
    else Bytes.ofString "..." ++ rest.drop (rest.length - 56)
  | _ =>
    let line := name.takeWhile (· != 0x0a)
    let shown :=
      if name.length < 45 && line.length = name.length then name
      else line.take 45 ++ Bytes.ofString "..."
    Bytes.ofString "[string \"" ++ shown ++ Bytes.ofString "\"]"

end ScriptBridge.Script
