import ScriptBridge.Script.Chunk
import ScriptBridge.Script.Token

/-!
From tokens to parsed chunks. Every reading function takes one unit of fuel per level of the
grammar; a text has fewer levels than four times its tokens.
-/

namespace ScriptBridge.Script

namespace Parser

/-- A local variable while its block is read. -/
structure Local where
  name : String
  isConst : Bool := false

/-- What is known of a function while its body is read. -/
structure Enclosing where
  /-- The variables in scope, the newest first. -/
  locals : List Local := []
  /-- The variables of outer functions that have been used. -/
  captures : List String := []
  isVararg : Bool := false
  loops : Nat := 0

structure Reading where
  tokens : List Placed
  /-- Why there are no more tokens, if not because the text ends. -/
  defect : Option ParseError
  /-- The line of the last token that was taken. -/
  last : Nat := 1
  /-- The functions around the place of reading, the innermost first, at least one. -/
  functions : List Enclosing := [{ isVararg := true }]
  /-- A `break` outside of all loops, which is reported where its function ends. -/
  strayBreak : Option Nat := none

abbrev Read := StateT Reading (Except ParseError)

def peek : Read Placed := do
  let r ← get
  match r.tokens with
  | t :: _ => pure t
  | [] => match r.defect with
    | some e => throw e
    | none => pure ⟨.eof, r.last⟩

def peekToken : Read Token := return (← peek).token

def lineHere : Read Nat := return (← peek).line

/-- Takes the next token; what follows must be a token again. -/
def advance : Read Unit := do
  let t ← peek
  modify fun r => { r with tokens := r.tokens.drop 1, last := t.line }
  match t.token with
  | .eof => pure ()
  | _ => discard peek

def failNear (message : String) : Read α := do
  let t ← peek
  throw ⟨message, t.line, some t.token.shown⟩

/-- A failure of meaning, which does not say what stands at the place. -/
def failHere (message : String) : Read α := do throw ⟨message, ← lineHere, none⟩

def isSign (s : String) : Read Bool := return (← peekToken) == .sign s

/-- Takes a sign if it comes next. -/
def accept (s : String) : Read Bool := do
  if ← isSign s then
    advance
    pure true
  else pure false

def quotedSign (s : String) : String := "'" ++ s ++ "'"

def expect (s : String) : Read Unit := do
  unless ← accept s do failNear (quotedSign s ++ " expected")

/-- Takes the sign that closes what `opening` opened at a line. -/
def close (s opening : String) (line : Nat) : Read Unit := do
  unless ← accept s do
    if (← lineHere) = line then failNear (quotedSign s ++ " expected")
    else failNear s!"{quotedSign s} expected (to close {quotedSign opening} at line {line})"

def name : Read String := do
  match ← peekToken with
  | .name s =>
    advance
    pure s
  | _ => failNear "<name> expected"

/-! ### Variables -/

def modifyInner (f : Enclosing → Enclosing) : Read Unit :=
  modify fun r => match r.functions with
    | inner :: outer => { r with functions := f inner :: outer }
    | [] => r

def inner : Read Enclosing := return (← get).functions.headD {}

def declare (locals : List Local) : Read Unit :=
  modifyInner fun f => { f with locals := locals.reverse ++ f.locals }

/-- Reads with a scope of its own: variables declared in it end with it. -/
def inScope (read : Read α) : Read α := do
  let before := (← inner).locals
  let a ← read
  modifyInner fun f => { f with locals := before }
  pure a

/-- Reads the body of a loop. -/
def inLoop (read : Read α) : Read α := do
  modifyInner fun f => { f with loops := f.loops + 1 }
  let a ← inScope read
  modifyInner fun f => { f with loops := f.loops - 1 }
  pure a

def declares (f : Enclosing) (name : String) : Option Local := f.locals.find? (·.name == name)

private def capture (name : String) (f : Enclosing) : Enclosing :=
  if f.captures.contains name then f else { f with captures := f.captures ++ [name] }

/-- Where a name is found among functions, the innermost first: the variable and the functions
with the captures that this takes. -/
def resolve (name : String) : List Enclosing → Option (Local × List Enclosing)
  | [] => none
  | f :: outer =>
    match declares f name with
    | some found => some (found, f :: outer)
    | none => (resolve name outer).map fun (found, outer) => (found, capture name f :: outer)

def variableAccess (name : String) : Read Expr := do
  let r ← get
  match resolve name r.functions with
  | none => pure (.global name)
  | some (_, functions) =>
    set { r with functions := functions }
    pure (.var name ((declares (r.functions.headD {}) name).isNone))

def isConst (name : String) : Read Bool := do
  match resolve name (← get).functions with
  | some (found, _) => pure found.isConst
  | none => pure false

/-! ### Expressions -/

def binaryOp? : Token → Option (BinaryOp ⊕ Bool)
  | .sign "+" => some (.inl .add)
  | .sign "-" => some (.inl .sub)
  | .sign "*" => some (.inl .mul)
  | .sign "/" => some (.inl .div)
  | .sign "%" => some (.inl .mod)
  | .sign "^" => some (.inl .pow)
  | .sign "//" => some (.inl .idiv)
  | .sign "&" => some (.inl .band)
  | .sign "|" => some (.inl .bor)
  | .sign "~" => some (.inl .bxor)
  | .sign "<<" => some (.inl .shl)
  | .sign ">>" => some (.inl .shr)
  | .sign ".." => some (.inl .concat)
  | .sign "==" => some (.inl .eq)
  | .sign "~=" => some (.inl .ne)
  | .sign "<" => some (.inl .lt)
  | .sign "<=" => some (.inl .le)
  | .sign ">" => some (.inl .gt)
  | .sign ">=" => some (.inl .ge)
  | .sign "and" => some (.inr true)
  | .sign "or" => some (.inr false)
  | _ => none

/-- How tightly an operator binds on its left and on its right. -/
def binding : BinaryOp ⊕ Bool → Nat × Nat
  | .inr false => (1, 1)
  | .inr true => (2, 2)
  | .inl op => match op with
    | .eq | .ne | .lt | .le | .gt | .ge => (3, 3)
    | .bor => (4, 4)
    | .bxor => (5, 5)
    | .band => (6, 6)
    | .shl | .shr => (7, 7)
    | .concat => (9, 8)
    | .add | .sub => (10, 10)
    | .mul | .div | .mod | .idiv => (11, 11)
    | .pow => (14, 13)

/-- How tightly operators with one operand bind. -/
def unaryBinding : Nat := 12

def unaryOp? : Token → Option UnaryOp
  | .sign "not" => some .not
  | .sign "-" => some .neg
  | .sign "#" => some .len
  | .sign "~" => some .bnot
  | _ => none

private def isComparison : BinaryOp → Bool
  | .eq | .ne | .lt | .le | .gt | .ge => true
  | _ => false

/-- Puts an operator between its operands. A comparison stands where its right operand ends, any
other operator at its own line. -/
def combine (op : BinaryOp ⊕ Bool) (left right : Expr) (line last : Nat) : Expr :=
  match op with
  | .inr true => .and left right
  | .inr false => .or left right
  | .inl op => .binary op left right (if isComparison op then last else line)

/-- A member that is read only when the bracket after it has been taken, at the line of that. -/
def readAt (line : Nat) : Expr → Expr
  | .index object key _ => .index object key line
  | e => e

def readLastAt (line : Nat) : List Expr → List Expr
  | [] => []
  | [e] => [readAt line e]
  | e :: rest => e :: readLastAt line rest

def readLastItemAt (line : Nat) : List Item → List Item
  | [] => []
  | [.positional e] => [.positional (readAt line e)]
  | item :: rest => item :: readLastItemAt line rest

/-- Whether a block ends at a token. -/
def endsBlock : Token → Bool
  | .eof => true
  | .sign s => ["else", "elseif", "end", "until"].contains s
  | _ => false

def tooDeep : Read α := failHere "chunk has too many syntax levels"

/-- Names separated by commas. -/
def moreNames (found : List String) : Nat → Read (List String)
  | 0 => pure found.reverse
  | n + 1 => do
    if ← accept "," then moreNames ((← name) :: found) n
    else pure found.reverse

/-- The attribute of a local variable: whether it is constant. -/
def constMark : Read Bool := do
  if ← accept "<" then
    let s ← name
    expect ">"
    if s == "const" || s == "close" then pure true
    else failHere s!"unknown attribute '{s}'"
  else pure false

def attributedNames (found : List Local) : Nat → Read (List Local)
  | 0 => pure found.reverse
  | n + 1 => do
    let s ← name
    let found := ⟨s, ← constMark⟩ :: found
    if ← accept "," then attributedNames found n else pure found.reverse

/-- Parameters up to the closing bracket, and whether there are further arguments. -/
def parameters (found : List String) : Nat → Read (List String × Bool)
  | 0 => pure (found.reverse, false)
  | n + 1 => do
    match ← peekToken with
    | .name s =>
      advance
      if ← accept "," then parameters (s :: found) n else pure ((s :: found).reverse, false)
    | .sign "..." =>
      advance
      pure (found.reverse, true)
    | _ => failNear "<name> expected"

/-- Reports a `break` for which there was no loop. -/
def checkBreaks : Read Unit := do
  match (← get).strayBreak with
  | some line => failHere s!"break outside a loop at line {line}"
  | none => pure ()

mutual

def expr : Nat → Read Expr
  | 0 => tooDeep
  | n + 1 => subexpr n 0

/-- An expression whose operators bind tighter than `limit`. -/
def subexpr : Nat → Nat → Read Expr
  | 0, _ => tooDeep
  | n + 1, limit => do
    let first ← match unaryOp? (← peekToken) with
      | some op => do
        let line ← lineHere
        advance
        pure (.unary op (← subexpr n unaryBinding) line)
      | none => simple n
    operators n limit first

/-- The operators after a first operand. -/
def operators : Nat → Nat → Expr → Read Expr
  | 0, _, _ => tooDeep
  | n + 1, limit, left => do
    match binaryOp? (← peekToken) with
    | some op =>
      if limit < (binding op).1 then
        let line ← lineHere
        advance
        let right ← subexpr n (binding op).2
        operators n limit (combine op left right line (← get).last)
      else pure left
    | none => pure left

def simple : Nat → Read Expr
  | 0 => tooDeep
  | n + 1 => do
    match ← peekToken with
    | .int _ i => do advance; pure (.int i)
    | .float _ d => do advance; pure (.float d)
    | .text _ s => do advance; pure (.text s)
    | .sign "nil" => do advance; pure .nil
    | .sign "true" => do advance; pure (.bool true)
    | .sign "false" => do advance; pure (.bool false)
    | .sign "..." => do
      unless (← inner).isVararg do failNear "cannot use '...' outside a vararg function"
      advance
      pure .varargs
    | .sign "\x7b" => table n
    | .sign "function" => do
      let line ← lineHere
      advance
      pure (.function (← functionBody n false line))
    | _ => suffixed n

/-- A name or a bracketed expression, and what follows it. -/
def suffixed : Nat → Read Expr
  | 0 => tooDeep
  | n + 1 => do
    let first ← match ← peekToken with
      | .name s => do
        advance
        variableAccess s
      | .sign "(" => do
        let line ← lineHere
        advance
        let e ← expr n
        close ")" "(" line
        pure (.single (readAt (← get).last e))
      | _ => failNear "unexpected symbol"
    suffixes n first

def suffixes : Nat → Expr → Read Expr
  | 0, _ => tooDeep
  | n + 1, e => do
    match ← peekToken with
    | .sign "." => do
      advance
      let line ← lineHere
      let field ← name
      suffixes n (.index e (.text (Bytes.ofString field)) line)
    | .sign "[" => do
      advance
      let key ← expr n
      let line ← lineHere
      expect "]"
      suffixes n (.index e key line)
    | .sign ":" => do
      advance
      let method ← name
      let line ← lineHere
      suffixes n (.method e method (← arguments n) line)
    | .sign "(" | .sign "\x7b" | .text _ _ => do
      let line ← lineHere
      suffixes n (.call e (← arguments n) line)
    | _ => pure e

/-- The arguments of a call: a list in brackets, a table or a string. -/
def arguments : Nat → Read (List Expr)
  | 0 => tooDeep
  | n + 1 => do
    match ← peekToken with
    | .text _ s => do advance; pure [.text s]
    | .sign "\x7b" => do pure [← table n]
    | .sign "(" => do
      let line ← lineHere
      advance
      if ← accept ")" then pure []
      else
        let args ← exprs n
        close ")" "(" line
        pure (readLastAt (← get).last args)
    | _ => failNear "function arguments expected"

/-- Expressions separated by commas, at least one. -/
def exprs : Nat → Read (List Expr)
  | 0 => tooDeep
  | n + 1 => do
    let first ← expr n
    if ← accept "," then pure (first :: (← exprs n)) else pure [first]

def table : Nat → Read Expr
  | 0 => tooDeep
  | n + 1 => do
    let line ← lineHere
    expect "\x7b"
    let items ← tableItems n
    close "\x7d" "\x7b" line
    pure (.table (readLastItemAt (← get).last items) line)

/-- The items of a table up to its closing bracket. -/
def tableItems : Nat → Read (List Item)
  | 0 => tooDeep
  | n + 1 => do
    if ← isSign "\x7d" then pure []
    else
      let item ← tableItem n
      if ← accept "," then pure (item :: (← tableItems n))
      else if ← accept ";" then pure (item :: (← tableItems n))
      else pure [item]

def tableItem : Nat → Read Item
  | 0 => tooDeep
  | n + 1 => do
    match ← peekToken with
    | .name s => do
      let r ← get
      match r.tokens[1]? with
      | some ⟨.sign "=", _⟩ =>
        advance
        advance
        pure (.keyed (.text (Bytes.ofString s)) (← expr n))
      | _ => pure (.positional (← expr n))
    | .sign "[" => do
      advance
      let key ← expr n
      expect "]"
      expect "="
      pure (.keyed key (← expr n))
    | _ => do pure (.positional (← expr n))

/-- A function from its parameters on. -/
def functionBody : Nat → Bool → Nat → Read FunctionBody
  | 0, _, _ => tooDeep
  | n + 1, isMethod, line => do
    expect "("
    let (params, isVararg) ← if ← isSign ")" then pure ([], false) else parameters [] (n + 1)
    expect ")"
    let params := if isMethod then "self" :: params else params
    let before := (← get).strayBreak
    modify fun r =>
      { r with
        functions :=
          { locals := (params.map fun p => { name := p }).reverse, isVararg := isVararg } ::
            r.functions }
    let body ← block n
    close "end" "function" line
    checkBreaks
    let done ← inner
    modify fun r => { r with functions := r.functions.drop 1, strayBreak := before }
    pure (.mk params isVararg done.captures body line)

/-- The statements of a block. -/
def block : Nat → Read (List Stmt)
  | 0 => tooDeep
  | n + 1 => do
    if endsBlock (← peekToken) then pure []
    else if ← isSign "return" then
      advance
      pure [← returns n]
    else
      let stmts ← statement n
      pure (stmts ++ (← block n))

def returns : Nat → Read Stmt
  | 0 => tooDeep
  | n + 1 => do
    let t ← peekToken
    let values ← if endsBlock t || t == .sign ";" then pure [] else exprs n
    discard (accept ";")
    pure (.returns values)

def statement : Nat → Read (List Stmt)
  | 0 => tooDeep
  | n + 1 => do
    let line ← lineHere
    match ← peekToken with
    | .sign ";" => do advance; pure []
    | .sign "if" => do pure [← conditional n line]
    | .sign "while" => do
      advance
      let condition ← expr n
      expect "do"
      let body ← inLoop (block n)
      close "end" "while" line
      pure [.loop [.leaveIf condition false, .block body]]
    | .sign "do" => do
      advance
      let body ← inScope (block n)
      close "end" "do" line
      pure [.block body]
    | .sign "for" => do
      advance
      pure [← forLoop n line]
    | .sign "repeat" => do
      advance
      let body ← inLoop do
        let body ← block n
        close "until" "repeat" line
        let condition ← expr n
        pure (body ++ [Stmt.leaveIf condition true])
      pure [.loop body]
    | .sign "function" => do
      advance
      pure [← functionStatement n line]
    | .sign "local" => do
      advance
      if ← accept "function" then
        let f ← name
        declare [{ name := f }]
        pure [.localFunction f (← functionBody n false line)]
      else
        let names ← attributedNames [] (n + 1)
        let values ← if ← accept "=" then exprs n else pure []
        declare names
        pure [.locals (names.map (·.name)) values]
    | .sign "break" => do
      advance
      if (← inner).loops = 0 then
        modify fun r => { r with strayBreak := r.strayBreak.orElse fun _ => some line }
      pure [.leave]
    | _ => do pure [← exprStatement n]

/-- A conditional from `if` or `elseif` on. -/
def conditional : Nat → Nat → Read Stmt
  | 0, _ => tooDeep
  | n + 1, line => do
    advance
    let condition ← expr n
    expect "then"
    let thenBody ← inScope (block n)
    if ← isSign "elseif" then pure (.conditional condition thenBody [← conditional n line])
    else if ← accept "else" then
      let elseBody ← inScope (block n)
      close "end" "if" line
      pure (.conditional condition thenBody elseBody)
    else
      close "end" "if" line
      pure (.conditional condition thenBody [])

def forLoop : Nat → Nat → Read Stmt
  | 0, _ => tooDeep
  | n + 1, line => do
    let first ← name
    match ← peekToken with
    | .sign "=" => do
      advance
      let start ← expr n
      expect ","
      let limit ← expr n
      let step ← if ← accept "," then expr n else pure (.int 1)
      expect "do"
      let body ← inLoop do
        declare [{ name := first }]
        block n
      close "end" "for" line
      pure (.numericFor first start limit step body line)
    | .sign "," | .sign "in" => do
      let names ← moreNames [first] (n + 1)
      expect "in"
      let values ← exprs n
      expect "do"
      let body ← inLoop do
        declare (names.map fun x => { name := x })
        block n
      close "end" "for" line
      pure (.genericFor names values body line)
    | _ => failNear "'=' or 'in' expected"

/-- A function with a global name, a field or a method. -/
def functionStatement : Nat → Nat → Read Stmt
  | 0, _ => tooDeep
  | n + 1, line => do
    let target ← variableAccess (← name)
    let (target, isMethod) ← functionName n target
    let body ← functionBody n isMethod line
    pure (.assign [target] [.function body] line)

def functionName : Nat → Expr → Read (Expr × Bool)
  | 0, _ => tooDeep
  | n + 1, target => do
    if ← accept "." then
      let line ← lineHere
      functionName n (.index target (.text (Bytes.ofString (← name))) line)
    else if ← accept ":" then
      let line ← lineHere
      pure (.index target (.text (Bytes.ofString (← name))) line, true)
    else pure (target, false)

/-- A call or an assignment. -/
def exprStatement : Nat → Read Stmt
  | 0 => tooDeep
  | n + 1 => do
    let e ← suffixed n
    let t ← peekToken
    if t == .sign "=" || t == .sign "," then assignment n [e]
    else match e with
      | .call .. | .method .. => pure (.call e)
      | _ => failNear "syntax error"

/-- An assignment after its first targets, which come newest first. -/
def assignment : Nat → List Expr → Read Stmt
  | 0, _ => tooDeep
  | n + 1, targets => do
    match targets with
    | .var .. :: _ | .global _ :: _ | .index .. :: _ => pure ()
    | _ => failNear "syntax error"
    if ← accept "," then
      let e ← suffixed n
      assignment n (e :: targets)
    else
      let line ← lineHere
      expect "="
      let values ← exprs n
      for target in targets do
        match target with
        | .var x _ => if ← isConst x then failHere s!"attempt to assign to const variable '{x}'"
        | _ => pure ()
      pure (.assign targets.reverse values line)

end

/-- A whole chunk. -/
def chunk (n : Nat) : Read (List Stmt) := do
  discard peek
  let body ← block n
  unless (← peekToken) == .eof do failNear "<eof> expected"
  checkBreaks
  pure body

end Parser

/-- The message of a parse error in a chunk. -/
def ParseError.text (e : ParseError) (chunk : Bytes) : Bytes :=
  chunk ++ Bytes.ofString s!":{e.line}: {e.message}" ++
    (match e.near with
      | some token => Bytes.ofString " near " ++ token
      | none => [])

/-- Parses the source of a chunk, which is a function with any number of arguments. -/
def parse (source : Bytes) : Except ParseError FunctionBody := do
  let (tokens, defect) := Lexer.tokens (source.length + 1) 1 source
  let fuel := 8 * tokens.length + 16
  let (body, _) ← (Parser.chunk fuel).run { tokens := tokens, defect := defect }
  pure (.mk [] true [] body 0)

end ScriptBridge.Script
