import ScriptBridge.World.Op

/-!
Programs that act on a world: sequences of elementary operations, requests that are carried out by
programs of their own, and scopes. A scope ends on success and on failure alike; what it changed for
its duration is then undone.
-/

namespace ScriptBridge

/-- How a program fails to give a result. -/
inductive Fault where
  | failed (e : BridgeError)
  /-- Requests were nested too deeply, or a script did not end in time. -/
  | exhausted
deriving DecidableEq

/-- What a scope is for. -/
inductive Scope where
  /-- An operation of the bridge on a state. -/
  | operation (s : StateId)
  /-- Values that are needed only for a while. -/
  | values
deriving DecidableEq, Repr

/-- What an engine is asked to do. -/
inductive Task where
  | call (f : Script.Datum) (args : List Script.Datum)
  | resume (thread : Ref) (args : List Script.Datum)
  | index (object key : Script.Datum)
  | assign (object key value : Script.Datum)
  /-- Runs the source of a chunk under a name. -/
  | chunk (name source : Script.Bytes) (args : List Script.Datum)

/-- What programs ask for without saying how it is done. -/
inductive Request : Type → Type where
  /-- Has an engine do something. -/
  | script (s : StateId) (task : Task) : Request (Except EngineError (List Script.Datum))
  /-- Has a receiver of a signal do what it does. -/
  | deliver (c : Connection) (sender : ObjectId) (args : List HostValue) : Request Unit
  /-- Destroys an object and its descendants. -/
  | destroy (o : ObjectId) : Request Unit
  /-- Has an engine remove what it no longer needs. -/
  | collect (s : StateId) : Request Unit

inductive Action : Type → Type 1 where
  | pure {α : Type} (a : α) : Action α
  | fail {α : Type} (f : Fault) : Action α
  | op {α β : Type} (o : Op β) (next : β → Action α) : Action α
  | request {α β : Type} (r : Request β) (next : β → Action α) : Action α
  /-- Runs a body in a scope. The handles in the body's result stay anchored outside. -/
  | scope {α β : Type} (s : Scope) (held : β → List Handle) (body : Action β)
      (next : Except Fault β → Action α) : Action α

namespace Action

def bind {α β : Type} : Action α → (α → Action β) → Action β
  | .pure a, f => f a
  | .fail e, _ => .fail e
  | .op o next, f => .op o fun b => (next b).bind f
  | .request r next, f => .request r fun b => (next b).bind f
  | .scope s held body next, f => .scope s held body fun r => (next r).bind f

instance : Monad Action where
  pure := .pure
  bind := .bind

def throw {α : Type} (e : BridgeError) : Action α := .fail (.failed e)

/-- Hands a failure on. -/
def ofExcept {α : Type} : Except BridgeError α → Action α
  | .ok a => .pure a
  | .error e => .throw e

def ofResult {α : Type} : Except Fault α → Action α
  | .ok a => .pure a
  | .error e => .fail e

def perform {β : Type} (o : Op β) : Action β := .op o .pure

def view {β : Type} (look : World → β) : Action β := perform (.view look)

def ask {β : Type} (r : Request β) : Action β := .request r .pure

/-- Runs a body in a scope and hands its failure on. -/
def within {β : Type} [Holding β] (s : Scope) (body : Action β) : Action β :=
  .scope s handles body ofResult

/-- Runs an operation of the bridge on a state. -/
def operation {β : Type} [Holding β] (s : StateId) (body : Action β) : Action β :=
  within (.operation s) body

/-- Runs a body and gives its failure as a result. -/
def attempt {β : Type} [Holding β] (body : Action β) : Action (Except BridgeError β) :=
  .scope .values handles body fun
    | .ok b => .pure (.ok b)
    | .error (.failed e) => .pure (.error e)
    | .error .exhausted => .fail .exhausted

end Action

namespace Scope

/-- The handles in the result of a scope that stay anchored outside. -/
def kept (held : β → List Handle) : Except Fault β → List Handle
  | .ok b => held b
  | .error _ => []

/-- The world in which the body of a scope runs. -/
def enter (s : Scope) (w : World) : World :=
  match s with
  | .operation st => w.openScope.modifyEngine st fun e => { e with depth := e.depth + 1 }
  | .values => w.openScope

/-- The world after a scope whose result holds some handles. -/
def exit (s : Scope) (result : List Handle) (w : World) : World :=
  match s with
  | .operation st =>
    (w.closeScope result).modifyEngine st fun e => { e with depth := e.depth - 1 }
  | .values => w.closeScope result

end Scope

end ScriptBridge
