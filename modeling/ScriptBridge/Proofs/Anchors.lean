import Mathlib.Data.List.Nodup
import ScriptBridge.Proofs.Frames
import ScriptBridge.Proofs.Runs

/-!
The books that engines keep of anchors. Whatever programs do, the count of a state is the number of its
anchors, no two of which have one number; and a program that has ended leaves the anchors of all scopes
that were open when it began.
-/

namespace ScriptBridge

theorem Store.nodup_ids (s : Store α) : s.ids.Nodup := by
  have each (slots : List (Option α × Nat)) :
      (slots.filterMap fun slot => slot.1.map fun _ => slot.2).Sublist (slots.map (·.2)) := by
    induction slots with
    | nil => exact .slnil
    | cons slot rest ih =>
      cases item : slot.1 with
      | none => simpa [item] using ih.cons slot.2
      | some => simpa [item] using ih.cons_cons slot.2
  have distinct : (s.slots.toList.zipIdx.map (·.2)).Nodup := by
    rw [List.zipIdx_map_snd]
    exact List.nodup_range'
  exact (each _).nodup distinct

namespace Anchor

variable {a b : Anchor} {s : StateId} {level : Nat} {result held : List Handle}

/-- An anchor of a scope further out stays what it is. -/
theorem settled_outer {n : Nat} (scope : a.scope = some n) (outer : n < level) :
    a.settled s level result held = some a := by
  unfold settled
  rw [scope, if_pos (by simpa using outer)]

theorem id_of_settled (kept : a.settled s level result held = some b) : b.id = a.id := by
  unfold settled at kept
  grind

/-- What an anchor is that is still there after a scope of a level. -/
theorem settled_cases (kept : a.settled s level result held = some b) :
    (∃ n < level, a.scope = some n ∧ b = a) ∨
    (a.isIn s result ∧ b.scope = some (level - 1)) ∨ (a.isIn s held ∧ b.scope = none) := by
  unfold settled at kept
  split at kept
  · rename_i outer
    obtain ⟨n, scope, small⟩ := (Option.any_eq_true ..).mp outer
    exact .inl ⟨n, of_decide_eq_true small, scope, (Option.some.inj kept).symm⟩
  · split at kept
    · rename_i given
      exact .inr (.inl ⟨given, (Option.some.inj kept) ▸ rfl⟩)
    · split at kept
      · rename_i there
        exact .inr (.inr ⟨there, (Option.some.inj kept) ▸ rfl⟩)
      · cases kept

theorem isIn_iff {hs : List Handle} :
    a.isIn s hs ↔ ∃ h ∈ hs, h.state = s ∧ h.anchor = a.id := by
  simp [isIn]

/-- An anchor stays that belongs to a scope further out or that a handle is on. -/
theorem settled_of_held {h : Handle} (state : h.state = s) (on : h.anchor = a.id)
    (member : h ∈ result ∨ h ∈ held) : ∃ b, a.settled s level result held = some b := by
  have inEither : a.isIn s result ∨ a.isIn s held :=
    member.imp (fun given => isIn_iff.mpr ⟨h, given, state, on⟩)
      fun there => isIn_iff.mpr ⟨h, there, state, on⟩
  unfold settled
  split
  · exact ⟨_, rfl⟩
  · split
    · exact ⟨_, rfl⟩
    · rw [if_pos (inEither.resolve_left ‹_›)]
      exact ⟨_, rfl⟩

end Anchor

namespace Engine

/-- Whether an engine's count is that of its anchors, which have distinct numbers given before and
belong to no scope further in than a level. -/
structure Booked (e : Engine) (level : Nat) : Prop where
  counted : e.live = e.anchors.length
  distinct : (e.anchors.map (·.id)).Nodup
  issued : ∀ a ∈ e.anchors, a.id < e.nextAnchor
  scopes : ∀ a ∈ e.anchors, ∀ n, a.scope = some n → n ≤ level

/-- The books of an engine. -/
def books (e : Engine) : List Anchor × AnchorId × Nat := (e.anchors, e.nextAnchor, e.live)

namespace Booked

variable {e e' : Engine} {level : Nat}

theorem of_books (booked : e.Booked level) (same : e'.books = e.books) : e'.Booked level := by
  obtain ⟨anchors, next, live⟩ : e'.anchors = e.anchors ∧ e'.nextAnchor = e.nextAnchor ∧
      e'.live = e.live := by simpa [books] using same
  constructor <;> simp only [anchors, next, live]
  · exact booked.counted
  · exact booked.distinct
  · exact booked.issued
  · exact booked.scopes

theorem deeper (booked : e.Booked level) : e.Booked (level + 1) :=
  ⟨booked.counted, booked.distinct, booked.issued,
    fun a member n scope => Nat.le_succ_of_le (booked.scopes a member n scope)⟩

theorem anchor (booked : e.Booked level) (target : Ref) : (e.anchor target level).Booked level where
  counted := congrArg (· + 1) booked.counted
  distinct := by
    refine List.nodup_cons.mpr ⟨fun member => ?_, booked.distinct⟩
    obtain ⟨a, old, same⟩ := List.mem_map.mp member
    exact Nat.lt_irrefl _ (same ▸ booked.issued a old)
  issued := by
    intro a member
    rcases List.mem_cons.mp member with rfl | old
    · exact Nat.lt_succ_self _
    · exact Nat.lt_succ_of_lt (booked.issued a old)
  scopes := by
    intro a member n scope
    rcases List.mem_cons.mp member with rfl | old
    · exact Nat.le_of_eq (Option.some.inj scope).symm
    · exact booked.scopes a old n scope

variable (s : StateId) (result held : List Handle)

/-- Anchors are released or stay. -/
theorem length_released (e : Engine) :
    (e.settle s level result held).anchors.length + (e.released s level result held).length =
      e.anchors.length := by
  simp only [settle, released, List.length_filterMap_eq_countP, ← List.countP_eq_length_filter]
  rw [List.length_eq_countP_add_countP fun a => (a.settled s level result held).isSome]
  congr 2
  funext a
  cases a.settled s level result held <;> rfl

theorem settle (booked : e.Booked level) : (e.settle s level result held).Booked (level - 1) where
  counted := by
    have split : (e.settle s level result held).anchors.length +
        (e.released s level result held).length = e.anchors.length := length_released ..
    have counted := booked.counted
    change e.live - (e.released s level result held).length = _
    omega
  distinct := by
    have ids (anchors : List Anchor) :
        ((anchors.filterMap (·.settled s level result held)).map (·.id)).Sublist
          (anchors.map (·.id)) := by
      induction anchors with
      | nil => exact .slnil
      | cons a rest ih =>
        rw [List.filterMap_cons]
        split
        · exact ih.cons _
        · rename_i b kept
          rw [List.map_cons, List.map_cons, Anchor.id_of_settled kept]
          exact ih.cons_cons _
    exact (ids e.anchors).nodup booked.distinct
  issued := by
    intro b member
    obtain ⟨a, old, kept⟩ := List.mem_filterMap.mp member
    exact Anchor.id_of_settled kept ▸ booked.issued a old
  scopes := by
    intro b member n scope
    obtain ⟨a, old, kept⟩ := List.mem_filterMap.mp member
    rcases Anchor.settled_cases kept with ⟨m, outer, own, rfl⟩ | ⟨-, given⟩ | ⟨-, none⟩
    · cases scope.symm.trans own
      exact Nat.le_sub_one_of_lt outer
    · exact Nat.le_of_eq (Option.some.inj (scope.symm.trans given))
    · cases scope.symm.trans none

end Booked

end Engine

namespace World

variable {w w₁ w' : World} {s : StateId}

/-- The anchors of a state. -/
def anchorsOf (w : World) (s : StateId) : List Anchor := ((w.engine? s).map (·.anchors)).getD []

/-- Whether all engines keep books of their anchors. -/
def Booked (w : World) : Prop := ∀ s e, w.engine? s = some e → e.Booked w.level

theorem anchorsOf_eq {e : Engine} (found : w.engine? s = some e) : w.anchorsOf s = e.anchors := by
  rw [anchorsOf, found]
  rfl

theorem exists_engine (isOpen : w.isOpen s) : ∃ e, w.engine? s = some e :=
  Option.isSome_iff_exists.mp isOpen

theorem isOpen_of_mem {a : Anchor} (member : a ∈ w.anchorsOf s) : w.isOpen s := by
  unfold anchorsOf at member
  unfold isOpen
  cases found : w.engine? s with
  | none => simp [found] at member
  | some e => rfl

/-- The count of a state is the number of its anchors. -/
theorem Booked.liveHandles (booked : w.Booked) (s : StateId) :
    w.liveHandles s = (w.anchorsOf s).length := by
  unfold World.liveHandles anchorsOf
  cases found : w.engine? s with
  | none => rfl
  | some e => exact (booked s e found).counted

theorem Booked.nodup (booked : w.Booked) (s : StateId) : ((w.anchorsOf s).map (·.id)).Nodup := by
  unfold anchorsOf
  cases found : w.engine? s with
  | none => exact List.nodup_nil
  | some e => exact (booked s e found).distinct

theorem Booked.scopes (booked : w.Booked) {a : Anchor} (member : a ∈ w.anchorsOf s) {n : Nat}
    (scope : a.scope = some n) : n ≤ w.level := by
  obtain ⟨e, found⟩ := exists_engine (isOpen_of_mem member)
  exact (booked s e found).scopes a (anchorsOf_eq found ▸ member) n scope

/-- Every engine is settled when a scope ends. -/
theorem engine?_closeScope (w : World) (result : List Handle) (s : StateId) :
    (w.closeScope result).engine? s =
      (w.engine? s).map (·.settle s w.level result w.heldHandles) := by
  have each (held : List Handle) (states : List StateId) (distinct : states.Nodup) (w : World) :
      (states.foldl (fun (w : World) s =>
          w.modifyEngine s fun e => e.settle s w.level result held) w).engine? s =
        if s ∈ states then (w.engine? s).map (·.settle s w.level result held)
        else w.engine? s := by
    induction states generalizing w with
    | nil => rfl
    | cons t rest ih =>
      obtain ⟨once, distinct⟩ := List.nodup_cons.mp distinct
      rw [List.foldl_cons, ih distinct, engine?_modifyEngine]
      by_cases same : t = s
      · subst same
        simp [once]
      · simp [same, Ne.symm same]
  refine (each w.heldHandles w.openStates w.engines.nodup_ids w).trans ?_
  split
  · rfl
  · rename_i closed
    have none : w.engine? s = none := by
      rw [openStates, Store.mem_ids, not_exists] at closed
      exact Option.eq_none_iff_forall_ne_some.mpr closed
    rw [none]
    rfl

/-- A world with the same books, whatever else of it has changed. -/
structure SameBooks (w w' : World) : Prop where
  level : w'.level = w.level
  next : w'.engines.next = w.engines.next
  books : ∀ s, (w'.engine? s).map Engine.books = (w.engine? s).map Engine.books

namespace SameBooks

theorem of_engines (level : w'.level = w.level) (engines : w'.engines = w.engines) :
    w.SameBooks w' := by
  refine ⟨level, by rw [engines], fun s => ?_⟩
  unfold engine?
  rw [engines]

theorem modifyEngine (w : World) (t : StateId) {f : Engine → Engine}
    (same : ∀ e, (f e).books = e.books) : w.SameBooks (w.modifyEngine t f) := by
  refine ⟨rfl, Store.next_modify .., fun s => ?_⟩
  rw [engine?_modifyEngine]
  split
  · rw [Option.map_map]
    exact congrArg (Option.map · _) (funext same)
  · rfl

theorem retain (w : World) (s : StateId) (kept : List Nat) : w.SameBooks (w.retain s kept).2 := by
  unfold World.retain
  split
  · exact of_engines rfl rfl
  · exact modifyEngine w s fun _ => rfl

/-- A change of what an engine counts otherwise. -/
private theorem count (w : World) (t : StateId) (f : Nat → Nat) :
    w.SameBooks (w.modifyEngine t fun e => { e with depth := f e.depth }) :=
  modifyEngine w t fun _ => rfl

theorem enter (sc : Scope) (w : World) : w.openScope.SameBooks (sc.enter w) := by
  cases sc with
  | values => exact of_engines rfl rfl
  | operation t => exact count w.openScope t (· + 1)

theorem exit (sc : Scope) (w : World) (result : List Handle) :
    (w.closeScope result).SameBooks (sc.exit result w) := by
  cases sc with
  | values => exact of_engines rfl rfl
  | operation t => exact count (w.closeScope result) t (· - 1)

variable (same : w.SameBooks w')
include same

theorem anchorsOf (s : StateId) : w'.anchorsOf s = w.anchorsOf s := by
  have look (w : World) : w.anchorsOf s = (((w.engine? s).map Engine.books).map (·.1)).getD [] := by
    rw [Option.map_map]
    rfl
  rw [look, look, same.books]

theorem isOpen (s : StateId) : w'.isOpen s = w.isOpen s := by
  have look (w : World) : w.isOpen s = ((w.engine? s).map Engine.books).isSome :=
    Option.isSome_map.symm
  rw [look, look, same.books]

theorem booked (booked : w.Booked) : w'.Booked := by
  intro s e' found'
  have books := same.books s
  rw [found'] at books
  obtain ⟨e, found, equal⟩ := Option.map_eq_some_iff.mp books.symm
  rw [same.level]
  exact (booked s e found).of_books equal.symm

end SameBooks

/-- The anchors that are there after a scope. -/
theorem anchorsOf_exit (sc : Scope) (w : World) (result : List Handle) (s : StateId) :
    (sc.exit result w).anchorsOf s =
      (w.anchorsOf s).filterMap (·.settled s w.level result w.heldHandles) := by
  rw [(SameBooks.exit sc w result).anchorsOf]
  unfold anchorsOf
  rw [engine?_closeScope]
  cases w.engine? s <;> rfl

theorem anchorsOf_enter (sc : Scope) (w : World) (s : StateId) :
    (sc.enter w).anchorsOf s = w.anchorsOf s :=
  (SameBooks.enter sc w).anchorsOf s

theorem isOpen_exit (sc : Scope) (w : World) (result : List Handle) (s : StateId) :
    (sc.exit result w).isOpen s = w.isOpen s := by
  rw [(SameBooks.exit sc w result).isOpen]
  unfold isOpen
  rw [engine?_closeScope, Option.isSome_map]

theorem isOpen_enter (sc : Scope) (w : World) (s : StateId) :
    (sc.enter w).isOpen s = w.isOpen s :=
  (SameBooks.enter sc w).isOpen s

@[simp] theorem level_enter (sc : Scope) (w : World) : (sc.enter w).level = w.level + 1 :=
  (SameBooks.enter sc w).level

@[simp] theorem level_exit (sc : Scope) (w : World) (result : List Handle) :
    (sc.exit result w).level = w.level - 1 :=
  (SameBooks.exit sc w result).level

theorem next_enter (sc : Scope) (w : World) : (sc.enter w).engines.next = w.engines.next :=
  (SameBooks.enter sc w).next

theorem next_exit (sc : Scope) (w : World) (result : List Handle) :
    (sc.exit result w).engines.next = w.engines.next := by
  have settling (held : List Handle) (states : List StateId) (w : World) :
      (states.foldl (fun (w : World) s =>
        w.modifyEngine s fun e => e.settle s w.level result held) w).engines.next =
        w.engines.next := by
    induction states generalizing w with
    | nil => rfl
    | cons t rest ih => exact (ih _).trans (Store.next_modify ..)
  exact (SameBooks.exit sc w result).next.trans (settling ..)

/-- What a program that has ended leaves of the books: the scopes that were open, with their anchors;
no state is open again that was closed. -/
structure Onward (w w' : World) : Prop where
  level : w'.level = w.level
  next : w.engines.next ≤ w'.engines.next
  opened : ∀ s < w.engines.next, w'.isOpen s → w.isOpen s
  kept : ∀ s, w'.isOpen s → ∀ a ∈ w.anchorsOf s, a.scope.isSome → a ∈ w'.anchorsOf s
  outer : ∀ s, ∀ a ∈ w'.anchorsOf s, ∀ n < w.level, a.scope = some n → a ∈ w.anchorsOf s

theorem lt_next_of_isOpen (isOpen : w.isOpen s) : s < w.engines.next := by
  obtain ⟨e, found⟩ := exists_engine isOpen
  exact Store.lt_next_of_get? found

namespace Onward

theorem of_sameBooks (same : w.SameBooks w') : w.Onward w' where
  level := same.level
  next := Nat.le_of_eq same.next.symm
  opened s _ isOpen := same.isOpen s ▸ isOpen
  kept s _ _ member _ := (same.anchorsOf s).symm ▸ member
  outer s _ member _ _ _ := same.anchorsOf s ▸ member

theorem refl (w : World) : w.Onward w := .of_sameBooks (.of_engines rfl rfl)

theorem trans (first : w.Onward w₁) (second : w₁.Onward w') : w.Onward w' where
  level := second.level.trans first.level
  next := Nat.le_trans first.next second.next
  opened s before isOpen :=
    first.opened s before (second.opened s (Nat.lt_of_lt_of_le before first.next) isOpen)
  kept s isOpen a member scope := by
    have before := lt_next_of_isOpen (isOpen_of_mem member)
    have between := second.opened s (Nat.lt_of_lt_of_le before first.next) isOpen
    exact second.kept s isOpen a (first.kept s between a member scope) scope
  outer s a member n small scope :=
    first.outer s a (second.outer s a member n (first.level ▸ small) scope) n small scope

/-- What is left in a scope is left by the scope. -/
theorem exit {sc : Scope} {result : List Handle} (inside : (sc.enter w).Onward w₁)
    (booked : w.Booked) : w.Onward (sc.exit result w₁) where
  level := by rw [level_exit, inside.level, level_enter, Nat.add_sub_cancel]
  next := by
    rw [next_exit, ← next_enter sc w]
    exact inside.next
  opened s before isOpen := by
    rw [isOpen_exit] at isOpen
    exact isOpen_enter sc w s ▸ inside.opened s (next_enter sc w ▸ before) isOpen
  kept s isOpen a member scope := by
    obtain ⟨n, own⟩ := Option.isSome_iff_exists.mp scope
    rw [isOpen_exit] at isOpen
    have still := inside.kept s isOpen a (anchorsOf_enter sc w s ▸ member) scope
    rw [anchorsOf_exit, inside.level, level_enter]
    refine List.mem_filterMap.mpr ⟨a, still, Anchor.settled_outer own ?_⟩
    exact Nat.lt_succ_of_le (booked.scopes member own)
  outer s b member n small scope := by
    rw [anchorsOf_exit, inside.level, level_enter] at member
    obtain ⟨a, there, settled⟩ := List.mem_filterMap.mp member
    rcases Anchor.settled_cases settled with ⟨m, _, own, rfl⟩ | ⟨-, given⟩ | ⟨-, none⟩
    · refine anchorsOf_enter sc w s ▸ inside.outer s b there n ?_ scope
      rw [level_enter]
      exact Nat.lt_succ_of_lt small
    · cases scope.symm.trans given
      exact absurd small (Nat.lt_irrefl _)
    · cases scope.symm.trans none

end Onward

theorem Booked.enter (booked : w.Booked) (sc : Scope) : (sc.enter w).Booked :=
  (SameBooks.enter sc w).booked fun s e found => (booked s e found).deeper

theorem Booked.exit (booked : w.Booked) (sc : Scope) (result : List Handle) :
    (sc.exit result w).Booked := by
  refine (SameBooks.exit sc w result).booked fun s e found => ?_
  rw [engine?_closeScope] at found
  obtain ⟨before, there, rfl⟩ := Option.map_eq_some_iff.mp found
  exact (booked s before there).settle s result w.heldHandles

end World

open World (Onward SameBooks)

/-- The operations that touch the books of anchors. -/
def Op.TouchesBooks : Op β → Prop
  | .anchor _ | .openEngine _ | .closeEngine _ => True
  | _ => False

/-- No operation opens or ends a scope. -/
theorem Op.level_apply (o : Op β) (w : World) : (o.apply w).2.level = w.level := by
  cases o with
  | takePlace s =>
    simp only [Op.apply, World.takePlace]
    split
    · split <;> rfl
    · rfl
  | registerFunction path f =>
    simp only [Op.apply, World.registerFunction]
    split <;> rfl
  | closeEngine s =>
    simp only [Op.apply, World.closeEngine]
    split <;> rfl
  | sweep s => exact (SameBooks.retain w s _).level
  | setParent o parent => exact (World.OnlyObjects.setParent w o parent).level
  | retire o => exact (World.OnlyObjects.retire w o).level
  | dropNative n =>
    simp only [Op.apply, World.dropNative]
    split
    · rfl
    · split
      · rfl
      · split <;> rfl
  | reap =>
    simp only [Op.apply]
    split
    · rename_i reaped
      exact (World.OnlyObjects.reap reaped).level
    · rfl
  | _ => rfl

theorem Op.sameBooks {o : Op β} (w : World) (untouched : ¬ o.TouchesBooks) :
    w.SameBooks (o.apply w).2 := by
  by_cases touches : o.TouchesEngines
  · cases o with
    | takePlace s =>
      simp only [Op.apply, World.takePlace]
      split
      · split
        · exact .modifyEngine w s fun _ => rfl
        · exact .of_engines rfl rfl
      · exact .of_engines rfl rfl
    | equip s part =>
      refine .modifyEngine w s fun e => ?_
      cases part <;> rfl
    | sweep s => exact .retain w s _
    | allocate | write | setRunning | givePlace | cacheWrapper | expire =>
      exact .modifyEngine w _ fun _ => rfl
    | anchor | openEngine | closeEngine => exact absurd trivial untouched
    | _ => exact touches.elim
  · exact .of_engines (o.level_apply w) (o.engines_apply w touches)

variable {α β : Type} {w w' : World}

namespace World

theorem engine?_anchor (w : World) (target : Ref) (s : StateId) :
    (w.anchor target).2.engine? s =
      if target.owner = s then (w.engine? s).map (·.anchor target w.level) else w.engine? s :=
  engine?_modifyEngine ..

theorem engine?_openEngine (w : World) (config : Config) {s : StateId} (before : s < w.engines.next) :
    (w.openEngine config).2.engine? s = w.engine? s := by
  change (Store.add ..).get? s = _
  rw [Store.get?_add, if_neg (Nat.ne_of_lt before)]
  rfl

theorem engine?_closeEngine (w : World) (s t : StateId) :
    (w.closeEngine s).2.engine? t = if s = t then none else w.engine? t := by
  unfold closeEngine
  split
  · rename_i closed
    split
    · rename_i same
      exact same ▸ closed
    · rfl
  · exact Store.get?_erase ..

end World

/-- No operation releases an anchor of a state that stays open. -/
theorem Op.anchorsOf_subset (o : Op β) (w : World) {s : StateId} (isOpen : (o.apply w).2.isOpen s) :
    w.anchorsOf s ⊆ (o.apply w).2.anchorsOf s := by
  intro a member
  obtain ⟨e, found⟩ := World.exists_engine (World.isOpen_of_mem member)
  by_cases touches : o.TouchesBooks
  · rw [World.anchorsOf_eq found] at member
    unfold World.anchorsOf
    cases o with
    | anchor target =>
      simp only [Op.apply, World.engine?_anchor, found]
      split
      · exact List.mem_cons_of_mem _ member
      · exact member
    | openEngine config =>
      simp only [Op.apply, World.engine?_openEngine w config (Store.lt_next_of_get? found), found]
      exact member
    | closeEngine t =>
      simp only [World.isOpen, Op.apply, World.engine?_closeEngine] at isOpen ⊢
      split at isOpen
      · cases isOpen
      · rename_i other
        rw [if_neg other, found]
        exact member
    | _ => exact touches.elim
  · exact (Op.sameBooks w touches).anchorsOf s ▸ member

/-- Every operation leaves the scopes that are open, with their anchors. -/
theorem Op.onward (o : Op β) (w : World) : w.Onward (o.apply w).2 := by
  by_cases touches : o.TouchesBooks
  · refine ⟨o.level_apply w, ?next, ?opened, fun s isOpen a member _ => ?kept, ?outer⟩
    case kept => exact o.anchorsOf_subset w isOpen member
    case next =>
      cases o with
      | anchor => exact Nat.le_of_eq (Store.next_modify ..).symm
      | openEngine =>
        exact Nat.le_of_lt (Nat.lt_of_lt_of_eq (Nat.lt_succ_self _) (Store.next_add ..).symm)
      | closeEngine s =>
        simp only [Op.apply, World.closeEngine]
        split
        · exact Nat.le_refl _
        · exact Nat.le_of_eq (Store.next_erase ..).symm
      | _ => exact touches.elim
    case opened =>
      intro s before isOpen
      cases o with
      | anchor target => exact World.isOpen_modifyEngine w _ _ _ ▸ isOpen
      | openEngine config =>
        simp only [World.isOpen, Op.apply, World.engine?_openEngine w config before] at isOpen
        exact isOpen
      | closeEngine t =>
        simp only [World.isOpen, Op.apply, World.engine?_closeEngine] at isOpen
        split at isOpen
        · cases isOpen
        · exact isOpen
      | _ => exact touches.elim
    case outer =>
      intro s a member n small scope
      unfold World.anchorsOf at member ⊢
      cases o with
      | anchor target =>
        simp only [Op.apply, World.engine?_anchor] at member
        split at member
        · cases found : w.engine? s with
          | none => simp [found] at member
          | some e =>
            simp only [found, Option.map_some, Option.getD_some] at member ⊢
            rcases List.mem_cons.mp member with rfl | old
            · cases scope
              exact absurd small (Nat.lt_irrefl _)
            · exact old
        · exact member
      | openEngine config =>
        by_cases before : s < w.engines.next
        · exact World.engine?_openEngine w config before ▸ member
        · simp only [Op.apply, World.openEngine, World.engine?, Store.get?_add] at member
          split at member
          · cases member
          · exact member
      | closeEngine t =>
        simp only [Op.apply, World.engine?_closeEngine] at member
        split at member
        · cases member
        · exact member
      | _ => exact touches.elim
  · exact .of_sameBooks (Op.sameBooks w touches)

/-- Every operation keeps the books. -/
theorem Op.booked (o : Op β) (booked : w.Booked) : (o.apply w).2.Booked := by
  by_cases touches : o.TouchesBooks
  · cases o with
    | anchor target =>
      intro s e found
      simp only [Op.apply, World.engine?_anchor] at found
      split at found
      · obtain ⟨before, there, rfl⟩ := Option.map_eq_some_iff.mp found
        exact (booked s before there).anchor target
      · exact booked s e found
    | openEngine config =>
      intro s e found
      simp only [Op.apply, World.openEngine, World.engine?, Store.get?_add] at found
      split at found
      · cases found
        exact ⟨rfl, List.nodup_nil, by simp, by simp⟩
      · exact booked s e found
    | closeEngine t =>
      intro s e found
      have level := Op.level_apply (.closeEngine t) w
      rw [level]
      simp only [Op.apply, World.engine?_closeEngine] at found
      split at found
      · cases found
      · exact booked s e found
    | _ => exact touches.elim
  · exact (Op.sameBooks w touches).booked booked

theorem Request.Begins.sameBooks {r : Request β} {a : Action β} (begins : r.Begins w a w') :
    w.SameBooks w' := by
  cases begins with
  | collected s w kept => exact .retain w s kept
  | _ => exact .of_engines rfl rfl

/-- Whatever runs keeps the books. -/
theorem Runs.booked {a : Action α} {moments : List Moment} {outcome : Option (Except Fault α)}
    (runs : Runs a w moments outcome w') (booked : w.Booked) : w'.Booked := by
  induction runs with
  | stop | pure | fail => exact booked
  | op _ ih => exact ih (Op.booked _ booked)
  | requestStopped begins _ ih | requestFailed begins _ ih => exact ih (begins.sameBooks.booked booked)
  | requestDone begins _ _ inner ih => exact ih (inner (begins.sameBooks.booked booked))
  | scopeStopped _ ih => exact ih (booked.enter _)
  | scopeDone _ _ inside ih => exact ih ((inside (booked.enter _)).exit _ _)

/-- A program that has ended leaves the scopes that were open, with their anchors. -/
theorem Runs.onward {a : Action α} {moments : List Moment} {outcome : Option (Except Fault α)}
    (runs : Runs a w moments outcome w') (ended : outcome.isSome) (booked : w.Booked) :
    w.Onward w' := by
  induction runs with
  | stop | requestStopped | scopeStopped => cases ended
  | pure | fail => exact .refl _
  | op _ ih => exact (Op.onward _ _).trans (ih ended (Op.booked _ booked))
  | requestFailed begins _ ih =>
    exact .trans (.of_sameBooks begins.sameBooks) (ih rfl (begins.sameBooks.booked booked))
  | requestDone begins inner _ ihInner ih =>
    have begun := begins.sameBooks.booked booked
    exact .trans (.of_sameBooks begins.sameBooks)
      ((ihInner rfl begun).trans (ih ended (inner.booked begun)))
  | scopeDone inner _ inside ih =>
    have entered := booked.enter
    exact ((inside rfl (entered _)).exit booked).trans
      (ih ended ((inner.booked (entered _)).exit _ _))

end ScriptBridge
