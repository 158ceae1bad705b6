import Mathlib.Data.Fintype.EquivFin
import Mathlib.Data.List.Perm.Subperm
import ScriptBridge.Proofs.Objects
import ScriptBridge.Proofs.Session

/-!
The tree of host objects: the lists of children and the links to parents agree, no object is its own
ancestor, and destroyed objects are out of the tree for good.
-/

namespace ScriptBridge

open Relation (ReflTransGen TransGen)

namespace World

/-- An object and its parent. -/
def ChildOf (w : World) (o p : ObjectId) : Prop := w.parentOf o = some p

/-- The two sides of the tree agree, and it has no cycles. -/
structure Forest (w : World) : Prop where
  agree : ∀ p o, o ∈ w.childrenOf p ↔ w.parentOf o = some p
  once : ∀ p, (w.childrenOf p).Nodup
  rooted : ∀ o, ¬ TransGen w.ChildOf o o

/-- An object, its parent, the parent of that, and so on up to the root of the tree. -/
inductive Ancestors (w : World) : ObjectId → List ObjectId → Prop where
  | root {o : ObjectId} (root : w.parentOf o = none) : Ancestors w o [o]
  | child {o p : ObjectId} {above : List ObjectId} (parent : w.parentOf o = some p)
      (upwards : Ancestors w p above) : Ancestors w o (o :: above)

/-- Destroyed objects have no place in the tree and no connections. -/
def Retired (w : World) : Prop :=
  ∀ o, w.isDestroyed o = true →
    w.parentOf o = none ∧ w.childrenOf o = [] ∧ w.connectionCount o = 0

/-- Chains of things that have been made end if none of them is a circle. -/
theorem founded_of_acyclic {r : ObjectId → ObjectId → Prop} {n : Nat} (made : ∀ a b, r a b → a < n)
    (acyclic : ∀ a, ¬ TransGen r a a) : WellFounded fun b a => r a b := by
  have chains : WellFounded fun b a : Fin n => TransGen r a b :=
    have : IsTrans (Fin n) fun b a => TransGen r a b :=
      ⟨fun _ _ _ first second => second.trans first⟩
    have : Std.Irrefl fun b a : Fin n => TransGen r a b := ⟨fun a => acyclic a⟩
    Finite.wellFounded_of_trans_of_irrefl _
  have ends (a : Fin n) : Acc (fun b a => r a b) a := by
    induction a using chains.induction with
    | _ a ih =>
      refine .intro _ fun b next => ?_
      by_cases there : b < n
      · exact ih ⟨b, there⟩ (.single next)
      · exact .intro _ fun c beyond => absurd (made b c beyond) there
  refine ⟨fun a => .intro _ fun b next => ?_⟩
  by_cases there : b < n
  · exact ends ⟨b, there⟩
  · exact .intro _ fun c beyond => absurd (made b c beyond) there

namespace Ancestors

variable {w : World} {o : ObjectId} {l : List ObjectId}

theorem mem_iff (upwards : w.Ancestors o l) {i : ObjectId} :
    i ∈ l ↔ ReflTransGen w.ChildOf o i := by
  induction upwards with
  | @root o root =>
    rw [List.mem_singleton, ReflTransGen.cases_head_iff]
    constructor
    · rintro rfl
      exact .inl rfl
    · rintro (rfl | ⟨p, child, -⟩)
      · rfl
      · simp [ChildOf, root] at child
  | @child o p above parent upwards ih =>
    have only : (∃ q, w.ChildOf o q ∧ ReflTransGen w.ChildOf q i) ↔ ReflTransGen w.ChildOf p i := by
      simp [ChildOf, parent]
    rw [List.mem_cons, ih, eq_comm, ← only]
    exact ReflTransGen.cases_head_iff.symm

/-- With enough room the list of ancestors is not cut off. -/
theorem ancestry (upwards : w.Ancestors o l) {n : Nat} (enough : l.length ≤ n) :
    w.ancestry n o = l := by
  induction upwards generalizing n with
  | root root =>
    obtain ⟨n, rfl⟩ := Nat.exists_eq_add_of_le' enough
    simp [World.ancestry, root]
  | child parent upwards ih =>
    obtain ⟨n, rfl⟩ := Nat.exists_eq_add_of_le' (Nat.le_of_add_left_le enough)
    simp [World.ancestry, parent, ih (Nat.le_of_succ_le_succ enough)]

end Ancestors

section Links

variable (w : World)

theorem parentOf_modifyObject {i : ObjectId} {f : HostObject → HostObject}
    (keeps : ∀ object, (f object).parent = object.parent) (o : ObjectId) :
    (w.modifyObject i f).parentOf o = w.parentOf o := by
  unfold parentOf
  rw [object?_modifyObject]
  split
  · cases w.object? o with
    | none => rfl
    | some object => exact keeps object
  · rfl

theorem childrenOf_modifyObject {i : ObjectId} {f : HostObject → HostObject}
    (keeps : ∀ object, (f object).children = object.children) (o : ObjectId) :
    (w.modifyObject i f).childrenOf o = w.childrenOf o := by
  unfold childrenOf
  rw [object?_modifyObject]
  split
  · cases w.object? o with
    | none => rfl
    | some object => exact keeps object
  · rfl

theorem connectionCount_modifyObject {i : ObjectId} {f : HostObject → HostObject}
    (keeps : ∀ object, (f object).connections = object.connections) (o : ObjectId) :
    (w.modifyObject i f).connectionCount o = w.connectionCount o := by
  unfold connectionCount
  rw [object?_modifyObject]
  split
  · cases w.object? o with
    | none => rfl
    | some object => exact congrArg List.length (keeps object)
  · rfl

theorem parentOf_orphan (i o : ObjectId) :
    (w.modifyObject i fun object => { object with parent := none }).parentOf o =
      if i = o then none else w.parentOf o := by
  unfold parentOf
  rw [object?_modifyObject]
  split
  · cases w.object? o <;> rfl
  · rfl

theorem childrenOf_update (i o : ObjectId) (f : List ObjectId → List ObjectId) (nil : f [] = []) :
    (w.modifyObject i fun object => { object with children := f object.children }).childrenOf o =
      if i = o then f (w.childrenOf o) else w.childrenOf o := by
  unfold childrenOf
  rw [object?_modifyObject]
  split
  · cases w.object? o with
    | none => exact nil.symm
    | some object => rfl
  · rfl

theorem parentOf_detach (i o : ObjectId) :
    (w.detach i).parentOf o = if i = o then none else w.parentOf o := by
  unfold detach
  cases w.parentOf i with
  | none => exact w.parentOf_orphan i o
  | some old =>
    dsimp only
    rw [parentOf_modifyObject _ (by simp), parentOf_orphan]

theorem childrenOf_detach (i o : ObjectId) :
    (w.detach i).childrenOf o =
      if w.parentOf i = some o then (w.childrenOf o).filter (· != i) else w.childrenOf o := by
  unfold detach
  cases w.parentOf i with
  | none => simpa using w.childrenOf_modifyObject (by simp) o
  | some old =>
    have kept : (w.modifyObject i fun object => { object with parent := none }).childrenOf o =
        w.childrenOf o := w.childrenOf_modifyObject (by simp) o
    simp only [Option.some.injEq]
    rw [childrenOf_update _ old o (·.filter (· != i)) rfl, kept]

theorem connectionCount_detach (i o : ObjectId) :
    (w.detach i).connectionCount o = w.connectionCount o := by
  unfold detach
  cases w.parentOf i with
  | none =>
    exact w.connectionCount_modifyObject (f := fun object => { object with parent := none })
      (by simp) o
  | some old =>
    dsimp only
    rw [connectionCount_modifyObject _ (by simp), connectionCount_modifyObject _ (by simp)]

theorem parentOf_releaseChildren (i o : ObjectId) :
    (w.releaseChildren i).parentOf o = if o ∈ w.childrenOf i then none else w.parentOf o := by
  have each (children : List ObjectId) (w : World) : (children.foldl (fun w child =>
      w.modifyObject child fun object => { object with parent := none }) w).parentOf o =
        if o ∈ children then none else w.parentOf o := by
    induction children generalizing w with
    | nil => simp
    | cons child rest ih =>
      rw [List.foldl_cons, ih, parentOf_orphan]
      by_cases same : child = o
      · simp [same]
      · have other : o ≠ child := fun h => same h.symm
        simp [same, other]
  unfold releaseChildren
  rw [parentOf_modifyObject _ (by simp)]
  exact each _ w

theorem childrenOf_releaseChildren (i o : ObjectId) :
    (w.releaseChildren i).childrenOf o = if i = o then [] else w.childrenOf o := by
  have each (children : List ObjectId) (w : World) : (children.foldl (fun w child =>
      w.modifyObject child fun object => { object with parent := none }) w).childrenOf o =
        w.childrenOf o := by
    induction children generalizing w with
    | nil => rfl
    | cons child rest ih =>
      rw [List.foldl_cons, ih]
      exact childrenOf_modifyObject w (f := fun object => { object with parent := none })
        (by simp) o
  unfold releaseChildren
  rw [childrenOf_update _ i o (fun _ => []) rfl]
  split
  · rfl
  · exact each _ w

theorem connectionCount_releaseChildren (i o : ObjectId) :
    (w.releaseChildren i).connectionCount o = w.connectionCount o := by
  have each (children : List ObjectId) (w : World) : (children.foldl (fun w child =>
      w.modifyObject child fun object => { object with parent := none }) w).connectionCount o =
        w.connectionCount o := by
    induction children generalizing w with
    | nil => rfl
    | cons child rest ih =>
      rw [List.foldl_cons, ih]
      exact connectionCount_modifyObject w (f := fun object => { object with parent := none })
        (by simp) o
  unfold releaseChildren
  rw [connectionCount_modifyObject _ (by simp)]
  exact each _ w

variable {w} in
theorem parentOf_attach {i p : ObjectId} {object : HostObject} (there : w.object? i = some object)
    (o : ObjectId) : (w.attach i p).parentOf o = if i = o then some p else w.parentOf o := by
  unfold attach
  rw [parentOf_modifyObject _ (by simp)]
  unfold parentOf
  rw [object?_modifyObject]
  split
  · rename_i same
    subst same
    simp [there]
  · rfl

variable {w} in
theorem childrenOf_attach {i p : ObjectId} {parent : HostObject} (there : w.object? p = some parent)
    (o : ObjectId) :
    (w.attach i p).childrenOf o = if p = o then w.childrenOf o ++ [i] else w.childrenOf o := by
  unfold attach childrenOf
  rw [object?_modifyObject, object?_modifyObject]
  by_cases same : p = o
  · subst same
    by_cases self : i = p <;> simp [there, self]
  · simp only [if_neg same]
    split
    · cases w.object? o <;> rfl
    · rfl

theorem connectionCount_attach (i p o : ObjectId) :
    (w.attach i p).connectionCount o = w.connectionCount o := by
  unfold attach
  rw [connectionCount_modifyObject _ (by simp), connectionCount_modifyObject _ (by simp)]

end Links

namespace Forest

variable {w w' : World} {o : ObjectId} (forest : w.Forest)
include forest

/-- Parents have been made. -/
theorem made {p : ObjectId} (child : w.ChildOf o p) : p < w.objects.next := by
  have member := (forest.agree p o).mpr child
  unfold childrenOf at member
  cases there : w.object? p with
  | none => simp [there] at member
  | some object => exact lt_next_of_object? there

/-- A world in which the links are the same. -/
theorem of_links (parents : ∀ o, w'.parentOf o = w.parentOf o)
    (children : ∀ o, w'.childrenOf o = w.childrenOf o) : w'.Forest where
  agree := by simpa [parents, children] using forest.agree
  once := by simpa [children] using forest.once
  rooted := by
    have same : w'.ChildOf = w.ChildOf := by
      funext o p
      simp [ChildOf, parents]
    simpa [same] using forest.rooted

/-- A world in which some objects have lost their parents. -/
theorem cut (lost : ObjectId → Bool)
    (parents : ∀ o, w'.parentOf o = if lost o then none else w.parentOf o)
    (children : ∀ p, w'.childrenOf p = (w.childrenOf p).filter (!lost ·)) : w'.Forest where
  agree := by
    intro p o
    rw [children, parents, List.mem_filter, forest.agree]
    cases lost o <;> simp
  once := by
    intro p
    rw [children]
    exact (forest.once p).filter _
  rooted := by
    intro o cycle
    refine forest.rooted o (TransGen.mono (fun a b child => ?_) o o cycle)
    change w.parentOf a = some b
    change w'.parentOf a = some b at child
    rw [parents] at child
    split at child
    · simp at child
    · exact child

theorem detach (i : ObjectId) : (w.detach i).Forest := by
  refine forest.cut (· == i) (fun o => ?_) fun p => ?_
  · rw [parentOf_detach]
    by_cases same : i = o
    · simp [same]
    · have other : o ≠ i := fun h => same h.symm
      simp [same, other]
  · rw [childrenOf_detach]
    split
    · rfl
    · rename_i elsewhere
      refine (List.filter_eq_self.mpr fun o member => ?_).symm
      have parent := (forest.agree p o).mp member
      have other : o ≠ i := fun same => elsewhere (same ▸ parent)
      simpa using other

/-- Only the parent of an object has it among its children. -/
theorem childrenOf_disjoint {p q o : ObjectId} (first : o ∈ w.childrenOf p)
    (second : o ∈ w.childrenOf q) : p = q := by
  have both := ((forest.agree p o).mp first).symm.trans ((forest.agree q o).mp second)
  exact Option.some.inj both

theorem releaseChildren (i : ObjectId) : (w.releaseChildren i).Forest := by
  refine forest.cut (fun o => decide (o ∈ w.childrenOf i)) (fun o => ?_) fun p => ?_
  · simp [parentOf_releaseChildren]
  · rw [childrenOf_releaseChildren]
    split
    · rename_i same
      subst same
      exact (List.filter_eq_nil_iff.mpr fun o member => by simp [member]).symm
    · rename_i other
      refine (List.filter_eq_self.mpr fun o member => ?_).symm
      have elsewhere : o ∉ w.childrenOf i := fun here =>
        other (forest.childrenOf_disjoint here member)
      simpa using elsewhere

/-- Whoever follows the links upwards comes to a root. -/
theorem founded_up : WellFounded fun p o => w.ChildOf o p := by
  refine founded_of_acyclic (n := w.objects.next) (fun o p child => ?_) forest.rooted
  obtain ⟨object, there, -⟩ := Option.bind_eq_some_iff.mp child
  exact lt_next_of_object? there

/-- Whoever follows the links downwards comes to an object without children. -/
theorem founded_down : WellFounded fun o p => w.ChildOf o p := by
  refine founded_of_acyclic (r := fun p o => w.ChildOf o p) (fun p o child => forest.made child) ?_
  intro o cycle
  exact forest.rooted o (Relation.transGen_swap.mp cycle)

theorem exists_ancestors (o : ObjectId) : ∃ l, w.Ancestors o l := by
  induction o using forest.founded_up.induction with
  | _ o ih =>
    cases parent : w.parentOf o with
    | none => exact ⟨[o], .root parent⟩
    | some p =>
      obtain ⟨above, upwards⟩ := ih p parent
      exact ⟨o :: above, .child parent upwards⟩

/-- No object is met twice on the way up, and all that are met have been made. -/
theorem length_ancestors {l : List ObjectId} (upwards : w.Ancestors o l)
    (made : o < w.objects.next) : l.length ≤ w.objects.next := by
  have distinct : l.Nodup := by
    clear made
    induction upwards with
    | root => exact List.nodup_singleton _
    | child parent upwards ih =>
      refine List.nodup_cons.mpr ⟨fun again => ?_, ih⟩
      exact forest.rooted _ (.head' parent (upwards.mem_iff.mp again))
  have small : l ⊆ List.range w.objects.next := by
    intro i member
    rcases (upwards.mem_iff.mp member).cases_tail with rfl | ⟨_, -, child⟩
    · exact List.mem_range.mpr made
    · exact List.mem_range.mpr (forest.made child)
  simpa using (List.subperm_of_subset distinct small).length_le

/-- The bounded list of ancestors is complete: it goes up to the root. -/
theorem ancestors (o : ObjectId) : w.Ancestors o (w.ancestry w.treeBound o) := by
  obtain ⟨l, upwards⟩ := forest.exists_ancestors o
  have enough : l.length ≤ w.treeBound := by
    by_cases made : o < w.objects.next
    · exact (forest.length_ancestors upwards made).trans (Nat.le_succ _)
    · have gone : w.object? o = none := Store.get?_of_next_le _ (Nat.le_of_not_lt made)
      cases upwards with
      | root => simp [treeBound]
      | child parent => simp [parentOf, gone] at parent
  rwa [upwards.ancestry enough]

theorem mem_ancestry {p o : ObjectId} :
    o ∈ w.ancestry w.treeBound p ↔ ReflTransGen w.ChildOf p o :=
  (forest.ancestors p).mem_iff

/-- An object that has no parent gets one that is not below it. -/
theorem attach {i p : ObjectId} {object parent : HostObject} (there : w.object? i = some object)
    (thereParent : w.object? p = some parent) (root : w.parentOf i = none)
    (apart : ¬ ReflTransGen w.ChildOf p i) : (w.attach i p).Forest where
  agree := by
    intro q o
    rw [childrenOf_attach thereParent, parentOf_attach there]
    have old := forest.agree q o
    by_cases self : i = o
    · subst self
      have none : i ∉ w.childrenOf q := by simp [old, root]
      by_cases here : p = q <;> simp [here, none]
    · have other : o ≠ i := fun same => self same.symm
      by_cases here : p = q <;> simp [here, self, other, old]
  once := by
    intro q
    rw [childrenOf_attach thereParent]
    split
    · have none : i ∉ w.childrenOf q := by simp [forest.agree, root]
      exact List.nodup_append.mpr ⟨forest.once q, by simp, by
        rintro a member b new rfl
        obtain rfl := List.mem_singleton.mp new
        exact none member⟩
    · exact forest.once q
  rooted := by
    have step {a b : ObjectId} (child : (w.attach i p).ChildOf a b) :
        w.ChildOf a b ∨ a = i ∧ b = p := by
      unfold ChildOf at child ⊢
      rw [parentOf_attach there] at child
      split at child
      · rename_i same
        exact .inr ⟨same.symm, (Option.some.inj child).symm⟩
      · exact .inl child
    -- A path of the new tree is one of the old tree, or goes through the new link.
    have old {a b : ObjectId} (path : TransGen (w.attach i p).ChildOf a b) :
        TransGen w.ChildOf a b ∨ ReflTransGen w.ChildOf a i ∧ ReflTransGen w.ChildOf p b := by
      induction path with
      | single child =>
        rcases step child with before | ⟨rfl, rfl⟩
        · exact .inl (.single before)
        · exact .inr ⟨.refl, .refl⟩
      | tail _ child ih =>
        rcases step child with before | ⟨rfl, rfl⟩
        · rcases ih with path | ⟨up, down⟩
          · exact .inl (path.tail before)
          · exact .inr ⟨up, down.tail before⟩
        · rcases ih with path | ⟨up, -⟩
          · exact .inr ⟨path.to_reflTransGen, .refl⟩
          · exact .inr ⟨up, .refl⟩
    intro o cycle
    rcases old cycle with path | ⟨up, down⟩
    · exact forest.rooted o path
    · exact apart (down.trans up)

omit forest in
/-- What has been found out before an object gets a parent. -/
theorem checkParent_ok {i : ObjectId} {p : ObjectId} (checked : w.checkParent i (some p) = .ok ()) :
    w.isDestroyed i = false ∧ w.isDestroyed p = false ∧ i ∉ w.ancestry w.treeBound p := by
  simp only [checkParent, ensureAlive, bind, Except.bind] at checked
  cases dead : w.isDestroyed i with
  | true => simp [dead] at checked
  | false =>
    cases deadParent : w.isDestroyed p with
    | true => simp [dead, deadParent] at checked
    | false =>
      simp only [dead, deadParent] at checked
      by_cases above : i ∈ w.ancestry w.treeBound p
      · simp [above, throw, throwThe, MonadExceptOf.throw] at checked
      · exact ⟨rfl, rfl, above⟩

/-- Parents are given only where that leads to no cycle. -/
theorem setParent (i : ObjectId) (parent : Option ObjectId) : (w.setParent i parent).2.Forest := by
  unfold World.setParent
  split
  · exact forest
  · rename_i checked
    have detached := forest.detach i
    cases parent with
    | none => exact detached
    | some p =>
      obtain ⟨alive, aliveParent, apart⟩ := checkParent_ok checked
      have stays (o : ObjectId) (alive : w.isDestroyed o = false) :
          ∃ object, (w.detach i).object? o = some object := by
        obtain ⟨object, there, -⟩ := object_of_alive ((w.isDestroyed_detach i o).trans alive)
        exact ⟨object, there⟩
      obtain ⟨object, there⟩ := stays i alive
      obtain ⟨parent, thereParent⟩ := stays p aliveParent
      refine detached.attach there thereParent (by simp [parentOf_detach]) fun path => ?_
      refine apart (forest.mem_ancestry.mpr (ReflTransGen.mono (fun a b child => ?_) p i path))
      change (w.detach i).parentOf a = some b at child
      rw [parentOf_detach] at child
      split at child
      · simp at child
      · exact child

end Forest

/-- The tree as it is wherever one looks. -/
structure Tidy (w : World) : Prop where
  forest : w.Forest
  retired : w.Retired

theorem tidy_empty : ({} : World).Tidy where
  forest :=
    { agree := by simp [childrenOf, parentOf, object?]
      once := by simp [childrenOf, object?]
      rooted := by
        intro o cycle
        obtain ⟨p, child, -⟩ := TransGen.head'_iff.mp cycle
        simp [ChildOf, parentOf, object?] at child }
  retired := by simp [Retired, childrenOf, parentOf, connectionCount, object?]

namespace Tidy

variable {w w' : World}

theorem of_objects (same : w'.objects = w.objects) (tidy : w.Tidy) : w'.Tidy where
  forest := tidy.forest.of_links (fun _ => by simp [parentOf, object?, same])
    fun _ => by simp [childrenOf, object?, same]
  retired := by
    intro o dead
    have before := tidy.retired o (by simpa [isDestroyed, object?, same] using dead)
    simpa [parentOf, childrenOf, connectionCount, object?, same] using before

variable (tidy : w.Tidy)
include tidy

/-- A change of an object that leaves the tree alone and connects nothing that is destroyed. -/
theorem modifyObject {i : ObjectId} {f : HostObject → HostObject}
    (parent : ∀ object, (f object).parent = object.parent)
    (children : ∀ object, (f object).children = object.children)
    (destroyed : ∀ object, (f object).destroyed = object.destroyed)
    (connections : ∀ object, w.object? i = some object → object.destroyed = true →
      object.connections = [] → (f object).connections = []) : (w.modifyObject i f).Tidy where
  forest :=
    tidy.forest.of_links (w.parentOf_modifyObject parent) (w.childrenOf_modifyObject children)
  retired := by
    intro o dead
    rw [isDestroyed_modifyObject destroyed] at dead
    obtain ⟨noParent, noChildren, unconnected⟩ := tidy.retired o dead
    rw [parentOf_modifyObject _ parent, childrenOf_modifyObject _ children]
    refine ⟨noParent, noChildren, ?_⟩
    unfold connectionCount at unconnected ⊢
    rw [object?_modifyObject]
    split
    · rename_i same
      subst same
      cases there : w.object? i with
      | none => rfl
      | some object =>
        rw [isDestroyed_of_object? there] at dead
        have none := connections object there dead (by simpa [there] using unconnected)
        simp [none]
    · exact unconnected

theorem newObject (cls : Class) (name : String) : (w.newObject cls name).2.Tidy := by
  have fresh : w.object? w.objects.next = none := Store.get?_of_next_le _ (Nat.le_refl _)
  constructor
  · refine tidy.forest.of_links (fun o => ?_) fun o => ?_
    · unfold parentOf
      rw [object?_newObject]
      split
      · rename_i same
        simp [same, fresh]
      · rfl
    · unfold childrenOf
      rw [object?_newObject]
      split
      · rename_i same
        simp [same, fresh]
      · rfl
  · intro o dead
    unfold isDestroyed at dead
    rw [object?_newObject] at dead
    split at dead
    · simp at dead
    · rename_i old
      have before := tidy.retired o dead
      simpa only [parentOf, childrenOf, connectionCount, object?_newObject, if_neg old] using before

theorem setParent (i : ObjectId) (parent : Option ObjectId) : (w.setParent i parent).2.Tidy where
  forest := tidy.forest.setParent i parent
  retired := by
    intro o dead
    rw [isDestroyed_setParent] at dead
    have before := tidy.retired o dead
    obtain ⟨noParent, noChildren, unconnected⟩ := before
    have detached : (w.detach i).parentOf o = none ∧ (w.detach i).childrenOf o = [] ∧
        (w.detach i).connectionCount o = 0 := by
      simp [parentOf_detach, childrenOf_detach, connectionCount_detach, noParent, noChildren,
        unconnected]
    unfold World.setParent
    split
    · exact ⟨noParent, noChildren, unconnected⟩
    · rename_i checked
      cases parent with
      | none => exact detached
      | some p =>
        obtain ⟨alive, aliveParent, -⟩ := Forest.checkParent_ok checked
        have other : i ≠ o := fun same => by simp [same, dead] at alive
        have otherParent : p ≠ o := fun same => by simp [same, dead] at aliveParent
        obtain ⟨object, there, -⟩ := object_of_alive ((w.isDestroyed_detach i i).trans alive)
        have still := (w.isDestroyed_detach i p).trans aliveParent
        obtain ⟨object', thereParent, -⟩ := object_of_alive still
        dsimp only
        rw [parentOf_attach there, childrenOf_attach thereParent, connectionCount_attach,
          if_neg other, if_neg otherParent]
        exact detached

omit tidy in
theorem parentOf_markDestroyed (i o : ObjectId) : (w.markDestroyed i).parentOf o = w.parentOf o :=
  w.parentOf_modifyObject (fun object => by split <;> rfl) o

omit tidy in
theorem childrenOf_markDestroyed (i o : ObjectId) :
    (w.markDestroyed i).childrenOf o = w.childrenOf o :=
  w.childrenOf_modifyObject (fun object => by split <;> rfl) o

theorem connectionCount_markDestroyed {i o : ObjectId} (dead : w.isDestroyed o = true ∨ i = o) :
    (w.markDestroyed i).connectionCount o = 0 := by
  unfold connectionCount markDestroyed
  rw [object?_modifyObject]
  have before (dead : w.isDestroyed o = true) : w.connectionCount o = 0 := (tidy.retired o dead).2.2
  split
  · cases there : w.object? o with
    | none => rfl
    | some object =>
      cases old : object.destroyed with
      | false => simp [old]
      | true =>
        have none := before ((isDestroyed_of_object? there).trans old)
        simpa [connectionCount, there, old] using none
  · rename_i other
    exact before (dead.resolve_right other)

theorem retire (i : ObjectId) : (w.retire i).2.Tidy where
  forest := by
    have marked : (w.markDestroyed i).Forest :=
      tidy.forest.of_links (parentOf_markDestroyed i) (childrenOf_markDestroyed i)
    exact (marked.detach i).releaseChildren i
  retired := by
    intro o dead
    rw [isDestroyed_retire] at dead
    have dead : w.isDestroyed o = true ∨ i = o := by simpa using dead
    have orphan : ((w.markDestroyed i).detach i).parentOf o = none := by
      rw [parentOf_detach, parentOf_markDestroyed]
      split
      · rfl
      · rename_i other
        exact (tidy.retired o (dead.resolve_right other)).1
    refine ⟨?_, ?_, ?_⟩
    · simp [World.retire, parentOf_releaseChildren, orphan]
    · simp only [World.retire, childrenOf_releaseChildren, childrenOf_detach,
        childrenOf_markDestroyed]
      split
      · rfl
      · rename_i other
        simp [(tidy.retired o (dead.resolve_right other)).2.1]
    · simp only [World.retire, connectionCount_releaseChildren, connectionCount_detach]
      exact tidy.connectionCount_markDestroyed dead

/-- An object that nothing holds is nobody's child; it goes, and its children become roots. -/
theorem erase {i : ObjectId} (unheld : ∀ p, i ∉ w.childrenOf p) :
    ({ w.releaseChildren i with
      objects := (w.releaseChildren i).objects.erase i } : World).Tidy := by
  have released := tidy.forest.releaseChildren i
  have gone (o : ObjectId) :
      ({ w.releaseChildren i with
        objects := (w.releaseChildren i).objects.erase i } : World).object? o =
          if i = o then none else (w.releaseChildren i).object? o := Store.get?_erase ..
  constructor
  · refine released.cut (· == i) (fun o => ?_) fun p => ?_
    · unfold parentOf
      rw [gone]
      by_cases same : i = o
      · simp [same]
      · have other : o ≠ i := fun h => same h.symm
        simp [same, other]
    · have kept : (w.releaseChildren i).childrenOf p =
          ((w.releaseChildren i).childrenOf p).filter (fun o => !(o == i)) := by
        refine (List.filter_eq_self.mpr fun o member => ?_).symm
        rw [childrenOf_releaseChildren] at member
        split at member
        · simp at member
        · have other : o ≠ i := fun same => unheld p (same ▸ member)
          simpa using other
      rw [← kept]
      unfold childrenOf
      rw [gone]
      split
      · rename_i same
        have none := w.childrenOf_releaseChildren i p
        rw [if_pos same] at none
        unfold childrenOf at none
        simp [none]
      · rfl
  · intro o dead
    unfold isDestroyed at dead
    simp only [parentOf, childrenOf, connectionCount, gone] at dead ⊢
    by_cases same : i = o
    · simp [same]
    · simp only [if_neg same] at dead ⊢
      have before : w.isDestroyed o = true := (w.isDestroyed_releaseChildren i o).symm.trans dead
      obtain ⟨noParent, noChildren, unconnected⟩ := tidy.retired o before
      have parent := w.parentOf_releaseChildren i o
      have children := w.childrenOf_releaseChildren i o
      have connections := w.connectionCount_releaseChildren i o
      simp only [noParent, noChildren, unconnected, ite_self] at parent children connections
      exact ⟨parent, children, connections⟩

theorem op (o : Op β) (permitted : o.Permitted w) (touches : o.Touches) : (o.apply w).2.Tidy := by
  have plain {i : ObjectId} {f : HostObject → HostObject}
      (parent : ∀ object, (f object).parent = object.parent)
      (children : ∀ object, (f object).children = object.children)
      (destroyed : ∀ object, (f object).destroyed = object.destroyed)
      (connections : ∀ object, (f object).connections = object.connections) :
      (w.modifyObject i f).Tidy :=
    tidy.modifyObject parent children destroyed fun object _ _ none =>
      (connections object).trans none
  cases o with
  | newObject cls name => exact tidy.newObject cls name
  | rename | store => exact plain (fun _ => rfl) (fun _ => rfl) (fun _ => rfl) fun _ => rfl
  | newWrapper i ownership =>
    have claimed : (w.modifyObject i fun object => { object with owned := true }).Tidy :=
      plain (fun _ => rfl) (fun _ => rfl) (fun _ => rfl) fun _ => rfl
    refine of_objects ?_ claimed
    rfl
  | setParent i parent => exact tidy.setParent i parent
  | retire i => exact tidy.retire i
  | markDestroyed => exact permitted.elim
  | connect i signal receiver =>
    refine tidy.modifyObject (fun _ => rfl) (fun _ => rfl) (fun _ => rfl) ?_
    intro object there dead
    have alive : w.isDestroyed i = false := permitted
    simp [isDestroyed_of_object? there, dead] at alive
  | disconnect | disconnectId =>
    refine tidy.modifyObject (fun _ => rfl) (fun _ => rfl) (fun _ => rfl) ?_
    intro object _ _ none
    simp [HostObject.disconnect, HostObject.disconnectId, none]
  | dropNative n =>
    rcases objects_dropNative w n with same | ⟨i, same⟩
    · exact of_objects same tidy
    · refine of_objects same (plain (fun _ => rfl) (fun _ => rfl) (fun _ => rfl) fun _ => rfl)
  | reap =>
    simp only [Op.apply, reap]
    cases found : w.objects.ids.find? (!w.heldObjects.contains ·) with
    | none => exact tidy
    | some i =>
      refine tidy.erase fun p member => ?_
      have unheld : i ∉ w.heldObjects := by simpa using List.find?_some found
      apply unheld
      unfold childrenOf at member
      cases there : w.object? p with
      | none => simp [there] at member
      | some object =>
        simp only [there, Option.map_some, Option.getD_some] at member
        have item : object ∈ w.objects.items := Store.mem_items.mpr ⟨p, there⟩
        simp only [heldObjects, List.mem_append, List.mem_flatMap]
        exact .inl (.inr ⟨object, item, .inl member⟩)
  | _ => exact touches.elim

end Tidy

theorem Tidy.change {w w' : World} (change : w.Change w') (tidy : w.Tidy) : w'.Tidy :=
  Change.keeps_objects (P := Tidy) (fun _ _ same tidy => of_objects same tidy)
    (fun o _ permitted touches tidy => tidy.op o permitted touches) w w' change tidy

end World

theorem Reaches.tidy {moments : List Moment} {w : World} (reaches : Reaches moments w) : w.Tidy :=
  reaches.holds World.tidy_empty fun _ _ => World.Tidy.change

/-- Wherever one looks, the tree is tidy; and what was destroyed at an earlier moment, or was gone
already, is out of the tree and without connections. -/
theorem Reaches.tree_consistent {moments : List Moment} {w : World} (reaches : Reaches moments w) :
    (∀ p o, (o ∈ w.childrenOf p ↔ w.parentOf o = some p) ∧ (w.childrenOf p).Nodup) ∧
    (∀ o, ¬ TransGen w.ChildOf o o) ∧
    (∀ o, w.isDestroyed o = true →
      w.parentOf o = none ∧ w.childrenOf o = [] ∧ w.connectionCount o = 0) ∧
    ∀ m ∈ moments, ∀ o, o < m.world.objects.next → m.world.isDestroyed o = true →
      w.isDestroyed o = true ∧ w.parentOf o = none ∧ w.childrenOf o = [] ∧
        w.connectionCount o = 0 := by
  have tidy : w.Tidy := reaches.holds World.tidy_empty fun _ _ change => World.Tidy.change change
  refine ⟨fun p o => ⟨tidy.forest.agree p o, tidy.forest.once p⟩, tidy.forest.rooted,
    tidy.retired, fun m member o made dead => ?_⟩
  obtain ⟨before, after, rfl⟩ := List.append_of_mem member
  obtain ⟨-, -, onward⟩ := reaches.passage.split
  have gone := World.Gone.later ⟨made, dead⟩ onward.arrives
  exact ⟨gone.2, tidy.retired o gone.2⟩

/-- Three objects, each the parent of the next; then the last is destroyed. -/
def generations : List Step := [
  ⟨.newObject .root "a", ["a"]⟩, ⟨.newObject .root "b", ["b"]⟩, ⟨.newObject .root "c", ["c"]⟩,
  ⟨.setParent 1 (some 0), []⟩, ⟨.setParent 2 (some 1), []⟩, ⟨.destroy 2, []⟩]

theorem tree_consistent_generations : ∃ moments, Reaches moments (Step.play {} generations) ∧
    1 ∈ (Step.play {} generations).childrenOf 0 ∧
    (Step.play {} generations).isDestroyed 2 = true ∧
    (Step.play {} generations).parentOf 2 = none := by
  obtain ⟨moments, session⟩ := Session.start.play generations
  have reaches := Reaches.of_session session
  obtain ⟨mirrored, -, retired, -⟩ := reaches.tree_consistent
  have dead : (Step.play {} generations).isDestroyed 2 = true := by decide +kernel
  have under : (Step.play {} generations).parentOf 1 = some 0 := by decide +kernel
  exact ⟨moments, reaches, ((mirrored 0 1).1).mpr under, dead, (retired 2 dead).1⟩

end ScriptBridge
