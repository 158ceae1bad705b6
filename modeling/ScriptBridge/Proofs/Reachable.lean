import Mathlib.Data.List.Perm.Subperm
import ScriptBridge.World.Collection

/-!
What a collection keeps: exactly the cells that lead on from the roots of an engine.
-/

namespace ScriptBridge

namespace Engine

/-- The places that an engine still needs, going on from its roots. -/
inductive Leads (e : Engine) : Nat → Prop where
  | root {r : Ref} (root : r ∈ e.roots) : Leads e r.index
  | member {i : Nat} {cell : Script.Cell} {r : Ref} (leads : Leads e i)
      (found : e.heap.get? i = some cell) (member : r ∈ cell.refs) : Leads e r.index

/-- What one cell adds to what is marked. -/
def fresh (e : Engine) (i : Nat) (marked : List Nat) : List Nat :=
  (e.successors i).eraseDups.filter (!marked.contains ·)

/-- The places that are not marked, whether there is a cell or not. -/
def unmarked (e : Engine) (marked : List Nat) : List Nat :=
  (List.range e.heap.next).filter (!marked.contains ·)

variable {e : Engine} {marked work : List Nat}

theorem mem_successors {i j : Nat} : j ∈ e.successors i ↔
    ∃ cell, e.heap.get? i = some cell ∧ (∃ r ∈ cell.refs, r.index = j) ∧
      (e.heap.get? j).isSome = true := by
  unfold successors
  cases e.heap.get? i with
  | none => simp
  | some cell => simp

theorem mem_fresh {i j : Nat} :
    j ∈ e.fresh i marked ↔ j ∈ e.successors i ∧ j ∉ marked := by
  simp [fresh]

theorem mem_unmarked {i : Nat} : i ∈ e.unmarked marked ↔ i < e.heap.next ∧ i ∉ marked := by
  simp [unmarked]

/-- No item is left twice where later copies are dropped. -/
private theorem nodup_eraseDups {α : Type} [BEq α] [LawfulBEq α] (items : List α) :
    items.eraseDups.Nodup := by
  induction size : items.length using Nat.strongRecOn generalizing items with
  | _ n ih =>
    cases items with
    | nil => exact .nil
    | cons a rest =>
      rw [List.eraseDups_cons, List.nodup_cons]
      have shorter : (rest.filter fun b => !b == a).length < n :=
        size ▸ Nat.lt_succ_of_le (List.length_filter_le _ _)
      exact ⟨by simp, ih _ shorter _ rfl⟩

/-- Every place that is marked is one less to be marked. -/
theorem length_fresh_add (i : Nat) (marked : List Nat) :
    (e.fresh i marked).length + (e.unmarked (e.fresh i marked ++ marked)).length ≤
      (e.unmarked marked).length := by
  rw [← List.length_append]
  refine (List.subperm_of_subset ?_ ?_).length_le
  · refine List.nodup_append.mpr ⟨(nodup_eraseDups _).filter _, List.nodup_range.filter _, ?_⟩
    rintro j new _ other rfl
    exact (mem_unmarked.mp other).2 (List.mem_append_left _ new)
  · intro j member
    rw [mem_unmarked]
    rcases List.mem_append.mp member with new | other
    · obtain ⟨successor, unseen⟩ := mem_fresh.mp new
      obtain ⟨_, -, -, there⟩ := mem_successors.mp successor
      obtain ⟨cell, found⟩ := Option.isSome_iff_exists.mp there
      exact ⟨Store.lt_next_of_get? found, unseen⟩
    · obtain ⟨small, unseen⟩ := mem_unmarked.mp other
      exact ⟨small, fun seen => unseen (List.mem_append_right _ seen)⟩

/-- What marking has come to: all that is marked is needed, and what a marked place refers to is
marked as well unless the place is still to be visited. -/
structure Marking (e : Engine) (work marked : List Nat) : Prop where
  needed : ∀ i ∈ marked, e.Leads i
  rooted : ∀ r ∈ e.roots, r.index ∈ marked
  pending : work ⊆ marked
  closed : ∀ i ∈ marked, i ∉ work → e.successors i ⊆ marked

theorem Marking.visit {i : Nat} (marking : e.Marking (i :: work) marked) :
    e.Marking (e.fresh i marked ++ work) (e.fresh i marked ++ marked) where
  needed := by
    intro j member
    rcases List.mem_append.mp member with new | old
    · obtain ⟨cell, found, ⟨r, refers, rfl⟩, -⟩ := mem_successors.mp (mem_fresh.mp new).1
      exact .member (marking.needed i (marking.pending List.mem_cons_self)) found refers
    · exact marking.needed j old
  rooted := fun r root => List.mem_append_right _ (marking.rooted r root)
  pending := by
    intro j member
    rcases List.mem_append.mp member with new | old
    · exact List.mem_append_left _ new
    · exact List.mem_append_right _ (marking.pending (List.mem_cons_of_mem _ old))
  closed := by
    intro j member done k successor
    rw [List.mem_append, not_or] at done
    have seen : j ∈ marked := (List.mem_append.mp member).resolve_left done.1
    by_cases visited : j = i
    · by_cases known : k ∈ marked
      · exact List.mem_append_right _ known
      · exact List.mem_append_left _ (mem_fresh.mpr ⟨visited ▸ successor, known⟩)
    · have other : j ∉ i :: work := by simp [visited, done.2]
      exact List.mem_append_right _ (marking.closed j seen other successor)

/-- With fuel for all that is to be visited and all that may still be marked, marking ends with
nothing left to visit. -/
theorem Marking.mark {n : Nat} (marking : e.Marking work marked)
    (fuel : work.length + (e.unmarked marked).length < n) :
    e.Marking [] (e.mark n work marked) := by
  induction n generalizing work marked with
  | zero => omega
  | succ n ih =>
    cases work with
    | nil => exact marking
    | cons i work =>
      refine ih marking.visit ?_
      have spent := length_fresh_add (e := e) i marked
      change (e.fresh i marked ++ work).length +
        (e.unmarked (e.fresh i marked ++ marked)).length < n
      rw [List.length_append]
      rw [List.length_cons] at fuel
      omega

theorem marking_reachable (e : Engine) : e.Marking [] e.reachable := by
  have start (i : Nat) : i ∈ (e.roots.map (·.index)).eraseDups ↔ ∃ r ∈ e.roots, r.index = i := by
    simp
  refine Marking.mark ⟨?_, fun r root => (start _).mpr ⟨r, root, rfl⟩, fun _ => id, ?_⟩ ?_
  · intro i member
    obtain ⟨r, root, rfl⟩ := (start i).mp member
    exact .root root
  · exact fun i member done => absurd member done
  · have bound := List.length_filter_le (!((e.roots.map (·.index)).eraseDups).contains ·)
      (List.range e.heap.next)
    rw [List.length_range] at bound
    unfold unmarked
    omega

/-- Exactly the cells that an engine still needs are reached. -/
theorem mem_reachable_iff {i : Nat} {cell : Script.Cell} (found : e.heap.get? i = some cell) :
    i ∈ e.reachable ↔ e.Leads i := by
  have marking := e.marking_reachable
  constructor
  · exact marking.needed i
  · intro leads
    induction leads generalizing cell with
    | root root => exact marking.rooted _ root
    | member leads before member ih =>
      refine marking.closed _ (ih before) (by simp) (mem_successors.mpr ?_)
      exact ⟨_, before, ⟨_, member, rfl⟩, by simp [found]⟩

end Engine

end ScriptBridge
