import ScriptBridge.World.Basic

/-!
The states of coroutines as the bridge sees them.
-/

namespace ScriptBridge

inductive ThreadState where
  /-- Made, and never resumed through the bridge. -/
  | fresh
  /-- Waits at a yield. -/
  | yielded
  | running
  | dead
deriving DecidableEq, Repr

def ThreadState.name : ThreadState → String
  | .fresh => "suspended"
  | .yielded => "yielded"
  | .running => "running"
  | .dead => "dead"

namespace World

def thread? (w : World) (r : Ref) : Option Script.Thread :=
  match w.cell? r with
  | some (.thread t) => some t
  | _ => none

/-- How far a coroutine is. -/
def progressOf (w : World) (r : Ref) : Option Script.Progress := (w.thread? r).map (·.progress)

/-- Whether a coroutine can be resumed as far as one can tell from outside. One that waits for what
it has called looks so while the native function in it keeps something on its stack. -/
def looksResumable (t : Script.Thread) : Bool :=
  match t.progress with
  | .fresh _ | .suspended _ => true
  | .active => (t.waiting.head?.map (·.reserve)) = some .stacked
  | .ended _ => false

def threadState (w : World) (r : Ref) : ThreadState :=
  if ((w.engine? r.owner).map (·.running)) = some r then .running
  else match w.thread? r with
    | some t => if looksResumable t then (if t.resumed then .yielded else .fresh) else .dead
    | none => .dead

end World

end ScriptBridge
