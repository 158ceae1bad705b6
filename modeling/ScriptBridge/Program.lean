import ScriptBridge.Script.Run

/-!
How requests are carried out, and how programs run. Requests may be nested to a fixed depth; a script
that would go deeper fails, as one whose stack overflows.
-/

namespace ScriptBridge

/-- Hands a signal to a receiver. A script receiver is called in its state with the sender first; a
slot of an object that is gone is passed over. -/
def Connection.deliver (c : Connection) (sender : ObjectId) (args : List HostValue) :
    Action Unit :=
  match c.receiver with
  | .script s callable => do
    if ← .view (·.isOpen s) then
      let object ← wrapObject s sender .native
      let values ← args.mapM (HostValue.toValue s)
      discard <| callable.call (object :: values)
    else .throw .stateClosed
  | .slot target signature body arity => do
    if ← .view (·.isDestroyed target) then pure ()
    else discard <| body.run target signature (args.take arity)

namespace Request

/-- The program that carries out a request. -/
def program : Request β → Action β
  | .script s task => Script.runTask s task
  | .deliver c sender args => c.deliver sender args
  | .destroy o => destroyObject o
  -- An engine that is asked to collect is free to keep everything.
  | .collect _ => pure ()

end Request

namespace Action

/-- Runs a program; `carryOut` carries out the requests in it. -/
def runWith (carryOut : {β : Type} → Request β → World → Except Fault β × World) :
    {α : Type} → Action α → World → Except Fault α × World
  | _, .pure a, w => (.ok a, w)
  | _, .fail f, w => (.error f, w)
  | _, .op o next, w =>
    let (b, w) := o.apply w
    runWith carryOut (next b) w
  | _, .request r next, w =>
    match carryOut r w with
    | (.ok b, w) => runWith carryOut (next b) w
    | (.error f, w) => (.error f, w)
  | _, .scope s held body next, w =>
    let (result, w) := runWith carryOut body (s.enter w)
    runWith carryOut (next result) (s.exit (Scope.kept held result) w)

/-- What becomes of a request that is nested too deeply. -/
def refuse {β : Type} (r : Request β) (w : World) : Except Fault β × World :=
  match r with
  | .script .. => (.ok (.error (.runtime "C stack overflow")), w)
  | .deliver .. | .destroy _ => (.error .exhausted, w)
  | .collect _ => (.ok (), w)

/-- Runs a program whose requests are nested to at most `n`. -/
def runTo : Nat → {α : Type} → Action α → World → Except Fault α × World
  | 0, _, a, w => runWith refuse a w
  | n + 1, _, a, w => runWith (fun r w => runTo n r.program w) a w

/-- How deeply requests may be nested. -/
def nestingLimit : Nat := 200

/-- Runs a program. -/
def run {α : Type} (a : Action α) (w : World) : Except Fault α × World := a.runTo nestingLimit w

end Action

end ScriptBridge
