/-!
Failures of bridge operations: a kind, a message, and a tag `subsystem.operation` that the first
place to attach one decides.
-/

namespace ScriptBridge

/-- What went wrong. -/
inductive ErrorKind where
  /-- The kind of value does not support the operation. -/
  | typeMismatch
  /-- A native or host object has no such member. -/
  | attributeNotFound
  | notCallable
  | notAssignable
  /-- The parameters of a slot do not fit those of a signal. -/
  | signatureMismatch
  /-- An unknown signal, slot or type. -/
  | nameNotFound
  /-- A dotted path goes through a value that is not indexable. -/
  | pathTypeMismatch
  | coroutineDead
  /-- The engine itself failed, in compiling or in running. -/
  | engineRuntime
  | objectDestroyed
  | stateClosed
  | stackImbalance
deriving DecidableEq, Repr

namespace ErrorKind

def all : List ErrorKind :=
  [.typeMismatch, .attributeNotFound, .notCallable, .notAssignable, .signatureMismatch,
   .nameNotFound, .pathTypeMismatch, .coroutineDead, .engineRuntime, .objectDestroyed,
   .stateClosed, .stackImbalance]

def name : ErrorKind → String
  | .typeMismatch => "TypeMismatch"
  | .attributeNotFound => "AttributeNotFound"
  | .notCallable => "NotCallable"
  | .notAssignable => "NotAssignable"
  | .signatureMismatch => "SignatureMismatch"
  | .nameNotFound => "NameNotFound"
  | .pathTypeMismatch => "PathTypeMismatch"
  | .coroutineDead => "CoroutineDead"
  | .engineRuntime => "EngineRuntime"
  | .objectDestroyed => "ObjectDestroyed"
  | .stateClosed => "StateClosed"
  | .stackImbalance => "StackImbalance"

def ofName? (name : String) : Option ErrorKind := all.find? (·.name == name)

end ErrorKind

/-- A failure as callers see it. -/
structure BridgeError where
  kind : ErrorKind
  message : String
  tag : Option String := none
deriving DecidableEq, Repr

namespace BridgeError

/-- Attaches a tag; a tag that is already there stays. -/
def withTag (e : BridgeError) (tag : String) : BridgeError :=
  { e with tag := e.tag.orElse fun _ => some tag }

def text (e : BridgeError) : String :=
  match e.tag with
  | some tag => tag ++ ": " ++ e.message
  | none => e.message

def typeMismatch (message : String) : BridgeError := ⟨.typeMismatch, message, none⟩

def nameNotFound (message : String) : BridgeError := ⟨.nameNotFound, message, none⟩

def memberMissing (key typeName : String) : BridgeError :=
  ⟨.attributeNotFound, s!"no member `{key}` in `{typeName}`", none⟩

def notCallable (typeName : String) : BridgeError :=
  ⟨.notCallable, s!"`{typeName}` value is not callable", none⟩

/-- The failure of taking a failure that script code has caught as a value. -/
def caughtFailure : BridgeError := typeMismatch "unsupported engine value of type `error`"

def stateClosed : BridgeError := ⟨.stateClosed, "the owning state has been closed", none⟩

def destroyed (className : String) : BridgeError :=
  ⟨.objectDestroyed, s!"`{className}` object has been destroyed", none⟩

end BridgeError

/-- A failure inside the engine, as it is carried through script code. -/
inductive EngineError where
  | runtime (message : String)
  | syntaxError (message : String)
  | memory (message : String)
  /-- A failure of other origin, given by its text. -/
  | external (message : String)
  /-- A bridge failure that travels through the engine. -/
  | bridge (e : BridgeError)
  /-- A failure that left a native function, with the script stack at that point. -/
  | callback (trace : String) (cause : EngineError)
  | context (message : String) (cause : EngineError)
deriving DecidableEq, Repr, Inhabited

namespace EngineError

private def isBlankAscii (c : Char) : Bool := c.isWhitespace || c == '\x0b' || c == '\x0c'

private def trimText (s : String) : String :=
  String.ofList ((s.toList.dropWhile isBlankAscii).reverse.dropWhile isBlankAscii).reverse

private def trimEndText (s : String) : String :=
  String.ofList (s.toList.reverse.dropWhile isBlankAscii).reverse

/-- The text before the first occurrence of a part, and from it on. -/
private def cutAt (part : List Char) : List Char → Option (List Char × List Char)
  | [] => if part.isEmpty then some ([], []) else none
  | c :: rest =>
    if part.isPrefixOf (c :: rest) then some ([], c :: rest)
    else (cutAt part rest).map fun (before, from_) => (c :: before, from_)

private def dropHeading (s : String) : String :=
  let heading := "stack traceback:".toList
  if heading.isPrefixOf s.toList then String.ofList (s.toList.drop heading.length) else s

/-- The trace of a failed native function: the innermost trace, with a mark where the outer one
begins in it. -/
private def mergedTrace (outer inner : String) : String :=
  let outer := trimText (dropHeading outer)
  match cutAt outer.toList inner.toList with
  | some (before, rest) => String.ofList before ++ ">" ++ trimEndText (String.ofList rest) ++ "\n"
  | none => trimEndText inner ++ "\n"

/-- The traces of the failed native functions above a failure: the outermost one, and the innermost
one if there are several. -/
private def traceEnd : Option (String × Option String) → String
  | none => ""
  | some (outer, none) => "\n" ++ trimEndText outer ++ "\n"
  | some (outer, some inner) => "\n" ++ mergedTrace outer inner

/-- The text of a failure that has left the native functions of some traces. -/
def textUnder : Option (String × Option String) → EngineError → String
  | above, .runtime m => "runtime error: " ++ m ++ traceEnd above
  | above, .syntaxError m => "syntax error: " ++ m ++ traceEnd above
  | above, .memory m => "memory error: " ++ m ++ traceEnd above
  | above, .external m => m ++ traceEnd above
  | above, .bridge e => e.text ++ traceEnd above
  | above, .context m cause => m ++ "\n" ++ cause.textUnder none ++ traceEnd above
  | none, .callback trace cause => cause.textUnder (some (trace, none))
  | some (outer, _), .callback trace cause => cause.textUnder (some (outer, some trace))

/-- The text of a failure. -/
def text (e : EngineError) : String := e.textUnder none

/-- The bridge failure inside, if there is one. -/
def bridge? : EngineError → Option BridgeError
  | .bridge e => some e
  | .callback _ cause => cause.bridge?
  | .context _ cause => cause.bridge?
  | _ => none

/-- The bridge failure that a failure of the engine amounts to. -/
def toBridge (e : EngineError) : BridgeError :=
  match e.bridge? with
  | some inner => inner
  | none => match e with
    | .syntaxError m => ⟨.engineRuntime, m, some "engine.syntax"⟩
    | .runtime m => ⟨.engineRuntime, m, some "engine.runtime"⟩
    | e => ⟨.engineRuntime, e.text, some "engine.runtime"⟩

end EngineError

end ScriptBridge
