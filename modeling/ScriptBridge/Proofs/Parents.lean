import ScriptBridge.Proofs.Preorder

/-!
An object gets another parent, or none: when that fails, and what it does to the tree.
-/

namespace ScriptBridge

open Relation (ReflTransGen TransGen)

namespace World

variable {w : World}

theorem object?_detach (w : World) (i o : ObjectId) :
    (w.detach i).object? o = (w.object? o).map fun object =>
      { object with
        parent := if i = o then none else object.parent
        children :=
          if w.parentOf i = some o then object.children.filter (· != i) else object.children } := by
  unfold detach
  cases w.parentOf i with
  | none =>
    rw [object?_modifyObject]
    by_cases self : i = o <;> simp [self]
  | some old =>
    dsimp only
    rw [object?_modifyObject, object?_modifyObject]
    by_cases self : i = o <;> by_cases left : old = o <;> simp [self, left, Function.comp_def]

theorem object?_attach (w : World) (i p o : ObjectId) :
    (w.attach i p).object? o = (w.object? o).map fun object =>
      { object with
        parent := if i = o then some p else object.parent
        children := if p = o then object.children ++ [i] else object.children } := by
  unfold attach
  rw [object?_modifyObject, object?_modifyObject]
  by_cases self : i = o <;> by_cases joined : p = o <;>
    simp [self, joined, Function.comp_def]

/-- Why an object cannot get a parent: it or the parent has been destroyed, or it would be its own
ancestor. -/
theorem Forest.checkParent_error_iff (forest : w.Forest) {o : ObjectId} {parent : Option ObjectId}
    {e : BridgeError} : w.checkParent o parent = .error e ↔
      (w.isDestroyed o = true ∧ e = .destroyed (w.classOf o).name) ∨
      w.isDestroyed o = false ∧ ∃ p, parent = some p ∧
        ((w.isDestroyed p = true ∧ e = .destroyed (w.classOf p).name) ∨
          w.isDestroyed p = false ∧ ReflTransGen w.ChildOf p o ∧
            e = ⟨.typeMismatch, s!"`{(w.classOf o).name}` object cannot become its own ancestor",
              some "reflect.parent"⟩) := by
  simp only [checkParent, ensureAlive, bind, Except.bind, pure, Except.pure, throw, throwThe,
    MonadExceptOf.throw]
  cases dead : w.isDestroyed o with
  | true => simp [@eq_comm _ e]
  | false =>
    cases parent with
    | none => simp
    | some p =>
      cases deadParent : w.isDestroyed p with
      | true => simp [deadParent, @eq_comm _ e]
      | false =>
        have above := forest.mem_ancestry (p := p) (o := o)
        by_cases member : o ∈ w.ancestry w.treeBound p
        · simp [deadParent, member, above.mp member, @eq_comm _ e]
        · simp [deadParent, member, mt above.mpr member]

/-- An object has got a new parent, or none: it stands last among the children of that one, and no
longer among those of the one that it had. Nothing else is different. -/
structure Moved (w : World) (o : ObjectId) (parent : Option ObjectId) (w' : World) : Prop where
  child : w'.object? o = (w.object? o).map fun object => { object with parent := parent }
  joined : ∀ p, parent = some p → w'.object? p = (w.object? p).map fun object =>
    { object with children := object.children.filter (· != o) ++ [o] }
  left : ∀ p, w.parentOf o = some p → parent ≠ some p → w'.object? p =
    (w.object? p).map fun object => { object with children := object.children.filter (· != o) }
  others : ∀ i, i ≠ o → parent ≠ some i → w.parentOf o ≠ some i → w'.object? i = w.object? i
  below : ∀ i, ReflTransGen w'.ChildOf i o ↔ ReflTransGen w.ChildOf i o
  subtree : w'.descendants o = w.descendants o
  rest : w.OnlyObjects w'

namespace Forest

variable {o : ObjectId} (forest : w.Forest)
include forest

theorem not_own_parent (o : ObjectId) : w.parentOf o ≠ some o := fun self =>
  forest.rooted o (.single self)

/-- An object is among the children of its parent only. -/
theorem filter_children {i : ObjectId} {object : HostObject} (there : w.object? i = some object)
    (stranger : w.parentOf o ≠ some i) :
    object.children.filter (· != o) = object.children := by
  refine List.filter_eq_self.mpr fun c member => ?_
  have child : c ∈ w.childrenOf i := by simpa [childrenOf, there] using member
  have other : c ≠ o := fun same => stranger (same ▸ (forest.agree i c).mp child)
  simpa using other

omit forest in
/-- What an object looks like after it or another one has moved. -/
theorem object?_setParent {parent : Option ObjectId} (checked : w.checkParent o parent = .ok ())
    (i : ObjectId) : (w.setParent o parent).2.object? i = (w.object? i).map fun object =>
      { object with
        parent := if o = i then parent else object.parent
        children :=
          (if w.parentOf o = some i then object.children.filter (· != o) else object.children) ++
            if parent = some i then [o] else [] } := by
  unfold World.setParent
  rw [checked]
  cases parent with
  | none => simp [object?_detach]
  | some p =>
    simp only [object?_attach, object?_detach, Option.map_map]
    congr 1
    funext object
    by_cases self : o = i <;> by_cases joined : p = i <;> simp [self, joined]

omit forest in
/-- Who is below an object does not depend on the parent of that object. -/
theorem below_of_parents {w' : World} (same : ∀ i, i ≠ o → w'.parentOf i = w.parentOf i)
    {i : ObjectId} (path : ReflTransGen w.ChildOf i o) : ReflTransGen w'.ChildOf i o := by
  induction path using ReflTransGen.head_induction_on with
  | refl => exact .refl
  | @head i p child _ ih =>
    by_cases self : i = o
    · rw [self]
    · exact .head ((same i self).trans child) ih

theorem moved {parent : Option ObjectId} (checked : w.checkParent o parent = .ok ()) :
    w.Moved o parent (w.setParent o parent).2 := by
  have looks := object?_setParent checked
  have apart (p : ObjectId) (given : parent = some p) : ¬ ReflTransGen w.ChildOf p o := by
    subst given
    exact mt forest.mem_ancestry.mpr (checkParent_ok checked).2.2
  have above {i : ObjectId} (below : ReflTransGen w.ChildOf i o) :
      w.parentOf o ≠ some i ∧ parent ≠ some i :=
    ⟨fun child => forest.rooted i (.tail' below child), fun given => apart i given below⟩
  have parents (i : ObjectId) (other : i ≠ o) :
      (w.setParent o parent).2.parentOf i = w.parentOf i := by
    simp [parentOf, looks, other.symm, Option.bind_map]
  have children (i : ObjectId) (below : ReflTransGen w.ChildOf i o) :
      (w.setParent o parent).2.childrenOf i = w.childrenOf i := by
    obtain ⟨former, new⟩ := above below
    simp [childrenOf, looks, former, new, Option.map_map, Function.comp_def]
  refine ⟨?_, fun p given => ?_, fun p former left => ?_, fun i other new former => ?_, fun i => ?_,
    forest.descendants_congr (forest.setParent o parent) children, .setParent w o parent⟩
  · obtain ⟨former, new⟩ := above (i := o) .refl
    simp [looks, former, new]
  · have other : o ≠ p := fun self => apart p given (self ▸ .refl)
    rw [looks]
    cases there : w.object? p with
    | none => rfl
    | some object =>
      by_cases former : w.parentOf o = some p
      · simp [other, former, given]
      · simp [other, former, given, forest.filter_children there former]
  · have other : o ≠ p := fun self => forest.not_own_parent o (former.trans (congrArg some self.symm))
    simp [looks, other, former, left]
  · simp [looks, other.symm, new, former]
  · exact ⟨below_of_parents fun i other => (parents i other).symm, below_of_parents parents⟩

end Forest

/-- An object gets the parent that it is given, or none, unless one of the two has been destroyed or
the parent is the object itself or below it; then nothing at all is different. Otherwise the object
is the last child of its new parent, is gone from the list of its former one, and takes along what
is below it. To find out, the links to parents are followed up to the root. -/
theorem Forest.setParent_law (forest : w.Forest) (o : ObjectId) (parent : Option ObjectId) :
    ((∃ e, (w.setParent o parent).1 = .error e) ↔
      w.isDestroyed o = true ∨
        ∃ p, parent = some p ∧ (w.isDestroyed p = true ∨ p = o ∨ TransGen w.ChildOf p o)) ∧
    (∀ e, (w.setParent o parent).1 = .error e → (w.setParent o parent).2 = w) ∧
    ((w.setParent o parent).1 = .ok () → w.Moved o parent (w.setParent o parent).2) ∧
    ∀ p, w.Ancestors p (w.ancestry w.treeBound p) := by
  have outcome : (w.setParent o parent).1 = w.checkParent o parent := by
    unfold World.setParent
    cases w.checkParent o parent <;> rfl
  refine ⟨?_, fun e failed => ?_, fun done => forest.moved (outcome.symm.trans done),
    forest.ancestors⟩
  · simp only [outcome, forest.checkParent_error_iff]
    constructor
    · rintro ⟨e, ⟨dead, -⟩ | ⟨-, p, given, ⟨dead, -⟩ | ⟨-, path, -⟩⟩⟩
      · exact .inl dead
      · exact .inr ⟨p, given, .inl dead⟩
      · rcases Relation.reflTransGen_iff_eq_or_transGen.mp path with same | below
        · exact .inr ⟨p, given, .inr (.inl same.symm)⟩
        · exact .inr ⟨p, given, .inr (.inr below)⟩
    · intro wrong
      cases dead : w.isDestroyed o with
      | true => exact ⟨_, .inl ⟨rfl, rfl⟩⟩
      | false =>
        obtain ⟨p, given, wrong⟩ := wrong.resolve_left (by simp [dead])
        cases deadParent : w.isDestroyed p with
        | true => exact ⟨_, .inr ⟨rfl, p, given, .inl ⟨deadParent, rfl⟩⟩⟩
        | false =>
          have path : ReflTransGen w.ChildOf p o := by
            rcases wrong.resolve_left (by simp [deadParent]) with rfl | below
            · exact .refl
            · exact below.to_reflTransGen
          exact ⟨_, .inr ⟨rfl, p, given, .inr ⟨deadParent, path, rfl⟩⟩⟩
  · rw [outcome] at failed
    unfold World.setParent
    rw [failed]

end World

/-- An object with two children, of which the first has a child of its own. -/
def household : List Step := [
  ⟨.newObject .root "a", ["a"]⟩, ⟨.newObject .root "b", ["b"]⟩, ⟨.newObject .root "c", ["c"]⟩,
  ⟨.newObject .root "d", ["d"]⟩, ⟨.setParent 1 (some 0), []⟩, ⟨.setParent 2 (some 0), []⟩,
  ⟨.setParent 3 (some 1), []⟩]

/-- The first child moves to where it is already, and comes last; its parent cannot move below the
child's child. -/
theorem setParent_law_household : (Step.play {} household).Forest ∧
    (Step.play {} household).Moved 1 (some 0) ((Step.play {} household).setParent 1 (some 0)).2 ∧
    ((Step.play {} household).setParent 1 (some 0)).2.childrenOf 0 = [2, 1] ∧
    ((Step.play {} household).setParent 1 (some 0)).2.descendants 1 = [3] ∧
    ((Step.play {} household).setParent 0 (some 3)).2 = Step.play {} household := by
  obtain ⟨moments, session⟩ := Session.start.play household
  have forest := (Reaches.of_session session).tidy.forest
  obtain ⟨done, children, below, none⟩ :
      ((Step.play {} household).setParent 1 (some 0)).1 = .ok () ∧
      ((Step.play {} household).setParent 1 (some 0)).2.childrenOf 0 = [2, 1] ∧
      (Step.play {} household).descendants 1 = [3] ∧
      ((Step.play {} household).setParent 0 (some 3)).1.toOption = none := by
    decide +kernel
  have moved := (forest.setParent_law 1 (some 0)).2.2.1 done
  refine ⟨forest, moved, children, moved.subtree.trans below, ?_⟩
  cases failed : ((Step.play {} household).setParent 0 (some 3)).1 with
  | ok => simp [failed, Except.toOption] at none
  | error e => exact (forest.setParent_law 0 (some 3)).2.1 e failed

end ScriptBridge
