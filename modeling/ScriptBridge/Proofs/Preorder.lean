import ScriptBridge.Proofs.Tree

/-!
The descendants of an object in pre-order: the bounded recursion reaches all of them, and lists each
one once.
-/

namespace ScriptBridge

open Relation (ReflTransGen TransGen)

namespace World

namespace Forest

variable {w w' : World} {o i : ObjectId} (forest : w.Forest)
include forest

/-- A child has one ancestor more than its parent, and there is an object for each of them. -/
theorem ancestors_of_child {l : List ObjectId} (upwards : w.Ancestors o l) {c : ObjectId}
    (child : c ∈ w.childrenOf o) : w.Ancestors c (c :: l) ∧ l.length < w.objects.next := by
  have parent := (forest.agree o c).mp child
  have path := Ancestors.child parent upwards
  obtain ⟨object, there, -⟩ := Option.bind_eq_some_iff.mp parent
  exact ⟨path, forest.length_ancestors path (lt_next_of_object? there)⟩

theorem childless {l : List ObjectId} (upwards : w.Ancestors o l)
    (full : w.objects.next ≤ l.length) : w.childrenOf o = [] := by
  refine List.eq_nil_iff_forall_not_mem.mpr fun c child => ?_
  exact Nat.not_lt.mpr full (forest.ancestors_of_child upwards child).2

/-- The further an object is from its root, the less room its descendants need. -/
theorem descendantsTo_enough {l : List ObjectId} (upwards : w.Ancestors o l) {n m : Nat}
    (enough : w.objects.next ≤ n + l.length) (enough' : w.objects.next ≤ m + l.length) :
    w.descendantsTo n o = w.descendantsTo m o := by
  induction n generalizing o l m with
  | zero =>
    have none := forest.childless upwards (by omega)
    cases m <;> simp [descendantsTo, none]
  | succ n ih =>
    cases m with
    | zero =>
      have none := forest.childless upwards (by omega)
      simp [descendantsTo, none]
    | succ m =>
      simp only [descendantsTo]
      refine List.flatMap_congr fun c child => ?_
      obtain ⟨path, -⟩ := forest.ancestors_of_child upwards child
      have longer : (c :: l).length = l.length + 1 := rfl
      rw [ih path (by omega) (m := m) (by omega)]

/-- Children come in their order, each before its own descendants. -/
theorem descendants_eq (o : ObjectId) :
    w.descendants o = (w.childrenOf o).flatMap fun c => c :: w.descendants c := by
  obtain ⟨l, upwards⟩ := forest.exists_ancestors o
  refine List.flatMap_congr fun c child => ?_
  obtain ⟨path, -⟩ := forest.ancestors_of_child upwards child
  have same := forest.descendantsTo_enough path (n := w.objects.next) (m := w.treeBound)
    (by omega) (by simp [treeBound]; omega)
  exact congrArg _ same

theorem mem_descendants : i ∈ w.descendants o ↔ TransGen w.ChildOf i o := by
  induction o using forest.founded_down.induction with
  | _ o ih =>
    rw [forest.descendants_eq, List.mem_flatMap, TransGen.tail'_iff]
    refine exists_congr fun c => ?_
    rw [forest.agree]
    refine ⟨fun ⟨child, member⟩ => ⟨?_, child⟩, fun ⟨path, child⟩ => ⟨child, ?_⟩⟩
    · rcases List.mem_cons.mp member with rfl | below
      · exact .refl
      · exact ((ih c child).mp below).to_reflTransGen
    · rcases Relation.reflTransGen_iff_eq_or_transGen.mp path with rfl | below
      · exact List.mem_cons_self
      · exact List.mem_cons_of_mem _ ((ih c child).mpr below)

/-- An object and what is below it. -/
theorem mem_subtree : i ∈ o :: w.descendants o ↔ ReflTransGen w.ChildOf i o := by
  rw [List.mem_cons, forest.mem_descendants, Relation.reflTransGen_iff_eq_or_transGen, eq_comm]

/-- Nothing is below two children of one object. -/
theorem siblings_apart {a b : ObjectId} (first : a ∈ w.childrenOf o) (second : b ∈ w.childrenOf o)
    (below : ReflTransGen w.ChildOf i a) (below' : ReflTransGen w.ChildOf i b) : a = b := by
  have parent := (forest.agree o a).mp first
  have parent' := (forest.agree o b).mp second
  have unique : Relator.RightUnique w.ChildOf := fun _ _ _ one other =>
    Option.some.inj (Eq.trans (Eq.symm one) other)
  -- The one of the two that is above the other is above its own parent, or is the other.
  have upper {a b : ObjectId} (parent : w.ChildOf a o) (parent' : w.ChildOf b o)
      (path : ReflTransGen w.ChildOf a b) : a = b := by
    rcases path.cases_head with same | ⟨p, child, path⟩
    · exact same
    · obtain rfl := unique parent child
      exact absurd (TransGen.tail' path parent') (forest.rooted o)
  rcases ReflTransGen.total_of_right_unique unique below below' with path | path
  · exact upper parent parent' path
  · exact (upper parent' parent path).symm

theorem nodup_descendants (o : ObjectId) : (w.descendants o).Nodup := by
  induction o using forest.founded_down.induction with
  | _ o ih =>
    rw [forest.descendants_eq, List.nodup_flatMap]
    constructor
    · intro c child
      have parent := (forest.agree o c).mp child
      have other : c ∉ w.descendants c := fun self =>
        forest.rooted c (forest.mem_descendants.mp self)
      exact List.nodup_cons.mpr ⟨other, ih c parent⟩
    · refine (forest.once o).imp_of_mem fun {a b} first second other => ?_
      intro i below below'
      exact other (forest.siblings_apart first second (forest.mem_subtree.mp below)
        (forest.mem_subtree.mp below'))

theorem nodup_subtree (o : ObjectId) : (o :: w.descendants o).Nodup := by
  refine List.nodup_cons.mpr ⟨fun self => ?_, forest.nodup_descendants o⟩
  exact forest.rooted o (forest.mem_descendants.mp self)

/-- The descendants depend on the lists of children in the subtree only. -/
theorem descendants_congr (forest' : w'.Forest)
    (same : ∀ i, ReflTransGen w.ChildOf i o → w'.childrenOf i = w.childrenOf i) :
    w'.descendants o = w.descendants o := by
  induction o using forest.founded_down.induction with
  | _ o ih =>
    rw [forest.descendants_eq, forest'.descendants_eq, same o .refl]
    refine List.flatMap_congr fun c child => ?_
    have parent := (forest.agree o c).mp child
    rw [ih c parent fun i below => same i (below.tail parent)]

end Forest

end World

end ScriptBridge
