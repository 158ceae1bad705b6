import ScriptBridge.Proofs.Preorder
import ScriptBridge.Proofs.Reachable

/-!
Objects found by name: the search below an object ends, and what it finds is the first of that name in
the list of the descendants.
-/

namespace ScriptBridge

open Relation (TransGen)

namespace World

variable {w : World} {name : String}

/-- What the search for a name among some objects and below each of them finds, however deep it has to
go. A derivation is a search that has come to an end. -/
inductive Searches (w : World) (name : String) : List ObjectId → Option ObjectId → Prop where
  | nothing : Searches w name [] none
  | here {c : ObjectId} {rest : List ObjectId} (named : w.nameOf c = name) :
      Searches w name (c :: rest) (some c)
  | deeper {c i : ObjectId} {rest : List ObjectId} (other : w.nameOf c ≠ name)
      (inside : Searches w name (w.childrenOf c) (some i)) : Searches w name (c :: rest) (some i)
  | beside {c : ObjectId} {rest : List ObjectId} {result : Option ObjectId}
      (other : w.nameOf c ≠ name) (inside : Searches w name (w.childrenOf c) none)
      (further : Searches w name rest result) : Searches w name (c :: rest) result

/-- What the collection of some objects, each with all that is below it, ends with. -/
inductive Collects (w : World) : List ObjectId → List ObjectId → Prop where
  | nothing : Collects w [] []
  | object {c : ObjectId} {rest inner others : List ObjectId}
      (inside : Collects w (w.childrenOf c) inner) (further : Collects w rest others) :
      Collects w (c :: rest) (c :: inner ++ others)

namespace Collects

variable {items l l' : List ObjectId}

theorem unique (collects : w.Collects items l) (collects' : w.Collects items l') : l = l' := by
  induction collects generalizing l' with
  | nothing =>
    cases collects'
    rfl
  | object inside further ihInside ihFurther =>
    cases collects' with
    | object inside' further' => rw [ihInside inside', ihFurther further']

/-- A search ends where the collection does, and early at the first object of the name in it. -/
theorem searches (collects : w.Collects items l) :
    w.Searches name items (l.find? fun i => w.nameOf i = name) := by
  induction collects with
  | nothing => exact .nothing
  | @object c rest inner others inside further ihInside ihFurther =>
    by_cases named : w.nameOf c = name
    · simpa [named] using Searches.here named
    · cases found : inner.find? fun i => w.nameOf i = name with
      | some i =>
        rw [found] at ihInside
        simpa [named, found] using Searches.deeper named ihInside
      | none =>
        rw [found] at ihInside
        simpa [named, found] using Searches.beside named ihInside ihFurther

end Collects

theorem Searches.unique {items : List ObjectId} {result result' : Option ObjectId}
    (searches : w.Searches name items result) (searches' : w.Searches name items result') :
    result = result' := by
  induction searches generalizing result' with
  | nothing =>
    cases searches'
    rfl
  | here named =>
    cases searches' with
    | here => rfl
    | deeper other => exact absurd named other
    | beside other => exact absurd named other
  | deeper other inside ih =>
    cases searches' with
    | here named => exact absurd named other
    | deeper _ inside' => exact ih inside'
    | beside _ inside' => exact absurd (ih inside') nofun
  | beside other inside further ihInside ihFurther =>
    cases searches' with
    | here named => exact absurd named other
    | deeper _ inside' => exact absurd (ihInside inside') nofun
    | beside _ _ further' => exact ihFurther further'

/-- Whatever the depth, the search takes the first of the name in the list to that depth. -/
theorem findChildTo_eq (w : World) (name : String) (n : Nat) (o : ObjectId) :
    w.findChildTo name n o = (w.descendantsTo n o).find? fun i => w.nameOf i = name := by
  induction n generalizing o with
  | zero => rfl
  | succ n ih =>
    rw [findChildTo, descendantsTo, List.find?_flatMap]
    congr 1
    funext c
    by_cases named : w.nameOf c = name <;> simp [named, ih]

theorem findChild_eq (w : World) (o : ObjectId) (name : String) :
    w.findChild o name = (w.descendants o).find? fun i => w.nameOf i = name :=
  w.findChildTo_eq name w.treeBound o

namespace Forest

variable (forest : w.Forest)
include forest

/-- The collection of the descendants comes to an end. -/
theorem collects_descendants (o : ObjectId) : w.Collects (w.childrenOf o) (w.descendants o) := by
  induction o using forest.founded_down.induction with
  | _ o ih =>
    have each (items : List ObjectId) (children : ∀ c ∈ items, w.ChildOf c o) :
        w.Collects items (items.flatMap fun c => c :: w.descendants c) := by
      induction items with
      | nil => exact .nothing
      | cons c rest further =>
        obtain ⟨child, others⟩ := List.forall_mem_cons.mp children
        exact .object (ih c child) (further others)
    rw [forest.descendants_eq]
    exact each _ fun c member => (forest.agree o c).mp member

/-- To search and to collect below an object each comes to an end with one result. The collection lists
every object that is below it once, and the search finds the first of the name in this list, or nothing
exactly if none in it has the name. -/
theorem search_law (o : ObjectId) (name : String) :
    (∀ l, w.Collects (w.childrenOf o) l ↔ l = w.descendants o) ∧
    (∀ i, i ∈ w.descendants o ↔ TransGen w.ChildOf i o) ∧ (w.descendants o).Nodup ∧
    (∀ result, w.Searches name (w.childrenOf o) result ↔ result = w.findChild o name) ∧
    (∀ i, w.findChild o name = some i ↔ w.nameOf i = name ∧
      ∃ before after, w.descendants o = before ++ i :: after ∧ ∀ j ∈ before, w.nameOf j ≠ name) ∧
    (w.findChild o name = none ↔ ∀ i ∈ w.descendants o, w.nameOf i ≠ name) := by
  have collects := forest.collects_descendants o
  have searches : w.Searches name (w.childrenOf o) (w.findChild o name) := by
    rw [findChild_eq]
    exact collects.searches
  refine ⟨fun l => ⟨fun other => other.unique collects, fun same => same ▸ collects⟩,
    fun i => forest.mem_descendants, forest.nodup_descendants o,
    fun result => ⟨fun other => other.unique searches, fun same => same ▸ searches⟩, fun i => ?_, ?_⟩
  · rw [findChild_eq, List.find?_eq_some_iff_append]
    simp
  · rw [findChild_eq, List.find?_eq_none]
    simp

end Forest

end World

/-- Two objects of one name: the first is below the first child, the second is the second child. -/
def namesakes : List Step := [
  ⟨.newObject .root "a", ["a"]⟩, ⟨.newObject .root "b", ["b"]⟩, ⟨.newObject .root "twin", ["c"]⟩,
  ⟨.newObject .root "twin", ["d"]⟩, ⟨.setParent 1 (some 0), []⟩, ⟨.setParent 2 (some 0), []⟩,
  ⟨.setParent 3 (some 1), []⟩]

/-- The one that is deeper in the tree comes first. -/
theorem search_law_namesakes : (Step.play {} namesakes).Forest ∧
    (Step.play {} namesakes).descendants 0 = [1, 3, 2] ∧
    (Step.play {} namesakes).nameOf 2 = "twin" ∧
    (Step.play {} namesakes).Searches "twin" ((Step.play {} namesakes).childrenOf 0) (some 3) ∧
    (Step.play {} namesakes).findChild 0 "a" = none := by
  obtain ⟨moments, session⟩ := Session.start.play namesakes
  have forest := (Reaches.of_session session).tidy.forest
  obtain ⟨below, second, first, others⟩ :
      (Step.play {} namesakes).descendants 0 = [1, 3, 2] ∧
      (Step.play {} namesakes).nameOf 2 = "twin" ∧
      (Step.play {} namesakes).findChild 0 "twin" = some 3 ∧
      ∀ i ∈ (Step.play {} namesakes).descendants 0, (Step.play {} namesakes).nameOf i ≠ "a" := by
    decide +kernel
  refine ⟨forest, below, second, ?_, ?_⟩
  · exact ((forest.search_law 0 "twin").2.2.2.1 _).mpr first.symm
  · exact (forest.search_law 0 "a").2.2.2.2.2.mpr others

end ScriptBridge
