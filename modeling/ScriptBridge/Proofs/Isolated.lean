import ScriptBridge.Action
import ScriptBridge.Proofs.Owned

/-!
Worlds whose engines hold references only into their own heaps, and the elementary changes that keep
them so.
-/

namespace ScriptBridge

open Script (Cell)

/-- An engine of a state that holds references only into its own heap. -/
structure Engine.Isolated (s : StateId) (e : Engine) : Prop where
  roots : Owned s e.roots
  cells : ∀ i cell, e.heap.get? i = some cell → Owned s cell.refs
  wrappers : ∀ entry ∈ e.wrappers, entry.2.owner = s

/-- A world in which no engine leads into the heap of another one. -/
def World.Isolated (w : World) : Prop := ∀ s e, w.engine? s = some e → e.Isolated s

namespace World

theorem isolated_empty : ({} : World).Isolated := by
  intro s e found
  simp [engine?] at found

theorem engine?_modifyEngine (w : World) (s t : StateId) (f : Engine → Engine) :
    (w.modifyEngine s f).engine? t = if s = t then (w.engine? t).map f else w.engine? t := by
  simp [engine?, modifyEngine, Store.get?_modify]

@[simp] theorem isOpen_modifyEngine (w : World) (s t : StateId) (f : Engine → Engine) :
    (w.modifyEngine s f).isOpen t = w.isOpen t := by
  simp only [isOpen, engine?_modifyEngine]
  split <;> simp

@[simp] theorem objects_modifyEngine (w : World) (s : StateId) (f : Engine → Engine) :
    (w.modifyEngine s f).objects = w.objects := rfl

@[simp] theorem natives_modifyEngine (w : World) (s : StateId) (f : Engine → Engine) :
    (w.modifyEngine s f).natives = w.natives := rfl

@[simp] theorem level_modifyEngine (w : World) (s : StateId) (f : Engine → Engine) :
    (w.modifyEngine s f).level = w.level := rfl

@[simp] theorem engines_modifyObject (w : World) (o : ObjectId) (f : HostObject → HostObject) :
    (w.modifyObject o f).engines = w.engines := rfl

@[simp] theorem natives_modifyObject (w : World) (o : ObjectId) (f : HostObject → HostObject) :
    (w.modifyObject o f).natives = w.natives := rfl

namespace Isolated

variable {w : World}

/-- What does not touch the engines keeps them apart. -/
theorem of_engines_eq (isolated : w.Isolated) {w' : World} (same : w'.engines = w.engines) :
    w'.Isolated := by
  intro s e found
  exact isolated s e (by simpa [engine?, same] using found)

theorem modifyEngine (isolated : w.Isolated) {s : StateId} {f : Engine → Engine}
    (keeps : ∀ e : Engine, w.engine? s = some e → e.Isolated s → (f e).Isolated s) :
    (w.modifyEngine s f).Isolated := by
  intro t e found
  rw [engine?_modifyEngine] at found
  split at found
  · rename_i same
    subst same
    obtain ⟨old, present, rfl⟩ := Option.map_eq_some_iff.mp found
    exact keeps old present (isolated s old present)
  · exact isolated t e found

theorem cell_owned (isolated : w.Isolated) {r : Ref} {cell : Cell} (found : w.cell? r = some cell) :
    Owned r.owner cell.refs := by
  simp only [cell?, Option.bind_eq_bind, Option.bind_eq_some_iff] at found
  obtain ⟨e, engine, there⟩ := found
  exact (isolated r.owner e engine).cells r.index cell there

theorem tableAt_owned (isolated : w.Isolated) (r : Ref) : Owned r.owner (w.tableAt r).refs := by
  unfold tableAt
  split
  · rename_i found
    have owned := isolated.cell_owned found
    simp only [Script.Cell.refs, Owned.append_iff] at owned
    exact owned.1
  · simp

theorem metatableAt_owned (isolated : w.Isolated) {r m : Ref} (found : w.metatableAt r = some m) :
    m.owner = r.owner := by
  unfold metatableAt at found
  split at found
  · rename_i cell
    have owned := isolated.cell_owned cell
    simp only [found, Script.Cell.refs, Owned.append_iff, Option.toList_some,
      Owned.cons_iff] at owned
    exact owned.2.1
  · simp at found

section Roots

variable {s : StateId} {e : Engine} (isolated : w.Isolated) (found : w.engine? s = some e)
include isolated found

theorem globals : e.globals.owner = s :=
  (isolated s e found).roots _ (by simp [Engine.roots])

theorem running : e.running.owner = s :=
  (isolated s e found).roots _ (by simp [Engine.roots])

theorem stringMeta {r : Ref} (there : e.stringMeta = some r) : r.owner = s :=
  (isolated s e found).roots _ (by simp [Engine.roots, there])

theorem fileMeta {r : Ref} (there : e.fileMeta = some r) : r.owner = s :=
  (isolated s e found).roots _ (by simp [Engine.roots, there])

theorem helper {r : Ref} (there : r ∈ e.helpers) : r.owner = s :=
  (isolated s e found).roots _ (by simp [Engine.roots, there])

end Roots

end Isolated

end World

namespace Engine.Isolated

variable {s : StateId} {e : Engine} (isolated : e.Isolated s)
include isolated

theorem add {cell : Cell} (owned : Owned s cell.refs) :
    Engine.Isolated s { e with heap := e.heap.add cell } where
  roots := isolated.roots
  cells := by
    intro i found there
    rw [Store.get?_add] at there
    split at there
    · obtain rfl := Option.some.inj there
      exact owned
    · exact isolated.cells i found there
  wrappers := isolated.wrappers

theorem modify {cell : Cell} (owned : Owned s cell.refs) (i : Nat) (p : Cell → Bool) :
    Engine.Isolated s
      { e with heap := e.heap.modify i fun old => if p old then cell else old } where
  roots := isolated.roots
  cells := by
    intro j found there
    rw [Store.get?_modify] at there
    split at there
    · obtain ⟨old, present, rfl⟩ := Option.map_eq_some_iff.mp there
      split
      · exact owned
      · exact isolated.cells j old present
    · exact isolated.cells j found there
  wrappers := isolated.wrappers

/-- Roots that come from the old ones or are the state's own. -/
theorem with_roots {e' : Engine} (heap : e'.heap = e.heap) (wrappers : e'.wrappers = e.wrappers)
    (roots : ∀ r ∈ e'.roots, r ∈ e.roots ∨ r.owner = s) : e'.Isolated s where
  roots := by
    intro r member
    rcases roots r member with old | own
    · exact isolated.roots r old
    · exact own
  cells := by simpa only [heap] using isolated.cells
  wrappers := by simpa only [wrappers] using isolated.wrappers

theorem settle (t : StateId) (level : Nat) (result held : List Handle) :
    (e.settle t level result held).Isolated s := by
  have target (a b : Anchor) (kept : a.settled t level result held = some b) :
      b.target = a.target := by
    simp only [Anchor.settled] at kept
    grind
  have subset : ∀ r ∈ (e.settle t level result held).roots, r ∈ e.roots ∨ r.owner = s := by
    intro r member
    simp only [Engine.roots, Engine.settle, Engine.released, List.mem_append, List.mem_cons,
      List.mem_map, List.mem_filterMap, List.mem_filter] at member ⊢
    grind
  exact isolated.with_roots (by rfl) (by rfl) subset

theorem anchor {r : Ref} (own : r.owner = s) (level : Nat) : (e.anchor r level).Isolated s := by
  have subset : ∀ root ∈ (e.anchor r level).roots, root ∈ e.roots ∨ root.owner = s := by
    intro root member
    simp only [Engine.roots, Engine.anchor, List.mem_append, List.mem_cons, List.map_cons]
      at member ⊢
    have dropped : root ∈ e.stale.drop 1 → root ∈ e.stale := List.mem_of_mem_drop
    grind
  exact isolated.with_roots (by rfl) (by rfl) subset

theorem retain (kept : List Nat) : (e.retain kept).Isolated s where
  roots := isolated.roots
  cells := by
    intro i cell there
    simp only [Engine.retain, Store.get?_eraseAll] at there
    split at there
    · simp at there
    · exact isolated.cells i cell there
  wrappers := by
    intro entry member
    exact isolated.wrappers entry (List.mem_filter.mp member).1

end Engine.Isolated

end ScriptBridge
