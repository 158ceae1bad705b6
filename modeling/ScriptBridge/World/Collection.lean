import ScriptBridge.Script.Reach
import ScriptBridge.World.Anchors
import ScriptBridge.World.Tree

/-!
What is no longer needed: cells of an engine that no root leads to, native objects that nothing
holds, host objects that nothing holds.
-/

namespace ScriptBridge

namespace Engine

/-- The places from which everything that an engine still needs can be reached. -/
def roots (e : Engine) : List Ref :=
  e.globals :: e.main :: e.running :: e.stringMeta.toList ++ e.fileMeta.toList ++ e.helpers ++
    e.anchors.map (·.target) ++ e.stale

/-- The indices of the cells that a cell refers to. -/
def successors (e : Engine) (index : Nat) : List Nat :=
  match e.heap.get? index with
  | some cell => (cell.refs.map (·.index)).filter fun i => (e.heap.get? i).isSome
  | none => []

/-- Marks what can be reached from the places of a worklist, taking one per unit of fuel. -/
def mark (e : Engine) : Nat → List Nat → List Nat → List Nat
  | 0, _, marked => marked
  | _, [], marked => marked
  | n + 1, index :: work, marked =>
    let fresh := (e.successors index).eraseDups.filter (!marked.contains ·)
    e.mark n (fresh ++ work) (fresh ++ marked)

/-- The indices of the cells that can be reached. -/
def reachable (e : Engine) : List Nat :=
  let start := (e.roots.map (·.index)).eraseDups
  e.mark (e.heap.next + start.length + 1) start start

/-- The native objects in cells that satisfy a condition, the newest cell first. -/
def nativesWhere (e : Engine) (p : Nat → Bool) : List NativeId :=
  (e.heap.ids.reverse.filter p).filterMap fun index =>
    match e.heap.get? index with
    | some (.native n) => some n
    | _ => none

/-- Removes all cells but some, and the wrappers of host objects that are not among those. -/
def retain (e : Engine) (kept : List Nat) : Engine :=
  { e with
    heap := (e.heap.ids.filter (!kept.contains ·)).foldl (fun heap index => heap.erase index) e.heap
    wrappers := e.wrappers.filter fun (_, r) => kept.contains r.index }

end Engine

namespace World

/-- Lets go of what released anchors still hold. -/
def expire (w : World) (s : StateId) : World := w.modifyEngine s fun e => { e with stale := [] }

/-- Removes all cells of a state but some. The native objects that were in them, the newest first,
are the result. -/
def retain (w : World) (s : StateId) (kept : List Nat) : List NativeId × World :=
  match w.engine? s with
  | none => ([], w)
  | some e => (e.nativesWhere (!kept.contains ·), w.modifyEngine s (·.retain kept))

/-- Removes the cells of a state that cannot be reached. -/
def sweep (w : World) (s : StateId) : List NativeId × World :=
  w.retain s ((w.engine? s).map (·.reachable) |>.getD [])

/-- Closes a state. The native objects in its heap, the newest first, are the result. -/
def closeEngine (w : World) (s : StateId) : List NativeId × World :=
  match w.engine? s with
  | none => ([], w)
  | some e => (e.nativesWhere fun _ => true, { w with engines := w.engines.erase s })

/-- Whether a userdata or a property holds a native object. -/
def holdsNative (w : World) (n : NativeId) : Bool :=
  w.engines.items.any (fun e => e.heap.items.any fun
    | .native m => m == n
    | _ => false) ||
  w.objects.items.any fun o => o.values.any fun (_, v) => v.natives.contains n

/-- Takes out a native object that nothing holds. An owning wrapper gives up its object. -/
def dropNative (w : World) (n : NativeId) : Option Native × World :=
  if w.holdsNative n then (none, w)
  else match w.native? n with
    | none => (none, w)
    | some native =>
      let w := { w with natives := w.natives.erase n }
      match native with
      | .wrapper o true _ =>
        (some native, w.modifyObject o fun object => { object with owned := false })
      | _ => (some native, w)

/-- The host objects that native objects, properties, parents and the program around the bridge
hold. -/
def heldObjects (w : World) : List ObjectId :=
  w.holdings.objects.map (·.2) ++
    w.objects.items.flatMap (fun o => o.children ++ o.values.flatMap (·.2.objects)) ++
    w.natives.items.filterMap fun
      | .wrapper o _ _ | .boundMethod o _ => some o
      | _ => none

/-- Takes out one host object that nothing holds; its children lose their parent. The native
objects that it held are the result. -/
def reap (w : World) : Option (List NativeId × World) :=
  let held := w.heldObjects
  match w.objects.ids.find? (!held.contains ·) with
  | none => none
  | some o =>
    let natives := ((w.object? o).map fun object => object.values.flatMap (·.2.natives)).getD []
    let w := w.releaseChildren o
    some (natives, { w with objects := w.objects.erase o })

end World

end ScriptBridge
