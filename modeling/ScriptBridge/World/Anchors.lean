import ScriptBridge.World.Basic

/-!
Anchors: which of them are held, and what becomes of them when a scope ends. An anchor stays as long
as its scope is open or some value of the world refers to it. What a program drops in the middle of a
scope is released at the end of the scope, so within one the count is an upper bound.
-/

namespace ScriptBridge

/-- Results that may hold handles. -/
class Holding (α : Type) where
  handles : α → List Handle

export Holding (handles)

instance : Holding Unit := ⟨fun _ => []⟩
instance : Holding Bool := ⟨fun _ => []⟩
instance : Holding Nat := ⟨fun _ => []⟩
instance : Holding String := ⟨fun _ => []⟩
instance : Holding Json.Tree := ⟨fun _ => []⟩
instance : Holding Script.Datum := ⟨fun _ => []⟩
instance : Holding Value := ⟨fun v => v.handle?.toList⟩
instance : Holding HostValue := ⟨HostValue.handles⟩
instance : Holding Entry := ⟨fun e => handles e.table ++ handles e.key ++ handles e.value⟩

instance [Holding α] : Holding (List α) := ⟨fun items => items.flatMap handles⟩
instance [Holding α] : Holding (Option α) := ⟨fun item => (item.map handles).getD []⟩
instance [Holding α] [Holding β] : Holding (α × β) := ⟨fun (a, b) => handles a ++ handles b⟩

instance [Holding α] : Holding (Except ε α) :=
  ⟨fun
    | .ok a => handles a
    | .error _ => []⟩

instance : Holding Receiver :=
  ⟨fun
    | .script _ callable => handles callable
    | .slot .. => []⟩

instance : Holding HostObject :=
  ⟨fun o => handles (o.values.map (·.2)) ++ handles (o.connections.map (·.receiver))⟩

instance : Holding Native :=
  ⟨fun
    | .bag items => handles items
    | _ => []⟩

instance : Holding Holdings :=
  ⟨fun h => handles (h.values.map (·.2)) ++ handles (h.entries.map (·.2))⟩

namespace World

/-- The handles that objects, native objects and the program around the bridge hold. -/
def heldHandles (w : World) : List Handle :=
  handles w.objects.items ++ handles w.natives.items ++ handles w.holdings

/-- How many anchors a state has, by its own count. -/
def liveHandles (w : World) (s : StateId) : Nat := ((w.engine? s).map (·.live)).getD 0

end World

namespace Anchor

def isIn (a : Anchor) (s : StateId) (hs : List Handle) : Bool :=
  hs.any fun h => h.state == s && h.anchor == a.id

/-- What becomes of an anchor when the scope of a level ends, unless it belongs to a scope further out:
one that the scope's result holds goes to the scope outside; any other has to be held by the world. -/
def settled (a : Anchor) (s : StateId) (level : Nat) (result world : List Handle) : Option Anchor :=
  if a.scope.any (· < level) then some a
  else if a.isIn s result then some { a with scope := some (level - 1) }
  else if a.isIn s world then some { a with scope := none }
  else none

end Anchor

namespace Engine

/-- Makes an anchor in a scope; it takes the place of one that was released. -/
def anchor (e : Engine) (target : Ref) (level : Nat) : Engine :=
  { e with
    anchors := ⟨e.nextAnchor, target, some level⟩ :: e.anchors
    nextAnchor := e.nextAnchor + 1
    live := e.live + 1
    stale := e.stale.drop 1 }

/-- The anchors that nothing holds when a scope ends. -/
def released (e : Engine) (s : StateId) (level : Nat) (result world : List Handle) : List Anchor :=
  e.anchors.filter fun a => (a.settled s level result world).isNone

/-- Releases the anchors that nothing holds when a scope ends. -/
def settle (e : Engine) (s : StateId) (level : Nat) (result world : List Handle) : Engine :=
  let released := e.released s level result world
  { e with
    anchors := e.anchors.filterMap (·.settled s level result world)
    live := e.live - released.length
    stale := released.map (·.target) ++ e.stale }

end Engine

namespace World

/-- The numbers of all open states. -/
def openStates (w : World) : List StateId := w.engines.ids

/-- Ends the innermost scope, whose result holds some handles. -/
def closeScope (w : World) (result : List Handle) : World :=
  let held := w.heldHandles
  { w.openStates.foldl
      (fun (w : World) s => w.modifyEngine s fun e => e.settle s w.level result held) w with
    level := w.level - 1 }

def openScope (w : World) : World := { w with level := w.level + 1 }

end World

end ScriptBridge
