import ScriptBridge.Proofs.Objects
import ScriptBridge.Proofs.Requests

/-!
Wrappers of host objects. A state remembers the userdata that it has made for an object until that
userdata is collected, and native objects in a heap stay what they are.
-/

namespace ScriptBridge

open ScriptBridge.Action (Meets)
open Script (Cell)

namespace World

variable {w w' : World}

/-- Ending a native object leaves all others alone, and also that one while something holds it. -/
theorem native?_dropNative (w : World) (n m : NativeId) :
    (w.dropNative n).2.native? m =
      if w.holdsNative n = false ∧ n = m then none else w.native? m := by
  unfold dropNative
  cases w.holdsNative n with
  | true => simp
  | false =>
    simp only [Bool.false_eq_true, if_false, true_and]
    split
    · rename_i missing
      split
      · rename_i same
        exact same ▸ missing
      · rfl
    · have erased : ({ w with natives := w.natives.erase n } : World).native? m =
          if n = m then none else w.native? m := Store.get?_erase ..
      split <;> exact erased

theorem native?_newNative (w : World) (native : Native) (m : NativeId) :
    (w.newNative native).2.native? m = if m = w.natives.next then some native else w.native? m :=
  Store.get?_add ..

theorem lt_next_of_native? {n : NativeId} {native : Native} (found : w.native? n = some native) :
    n < w.natives.next :=
  Store.lt_next_of_get? found

/-- A userdata that is there holds its native object. -/
theorem holdsNative_of_cell {r : Ref} {n : NativeId} (found : w.cell? r = some (.native n)) :
    w.holdsNative n = true := by
  obtain ⟨e, engine, cell⟩ := Option.bind_eq_some_iff.mp found
  have inEngines : e ∈ w.engines.items := Store.mem_items.mpr ⟨r.owner, engine⟩
  have inHeap : Cell.native n ∈ e.heap.items := Store.mem_items.mpr ⟨r.index, cell⟩
  unfold holdsNative
  rw [Bool.or_eq_true]
  refine .inl (List.any_eq_true.mpr ⟨e, inEngines, List.any_eq_true.mpr ⟨_, inHeap, ?_⟩⟩)
  simp

/-- A wrapper stays as it is while something holds it. -/
theorem wrapper_apply (o : Op β) {n : NativeId} {i : ObjectId} {owning : Bool}
    {ownership : Ownership} (found : w.native? n = some (.wrapper i owning ownership))
    (held : w.holdsNative n = true) :
    (o.apply w).2.native? n = some (.wrapper i owning ownership) := by
  have old : n ≠ w.natives.next := Nat.ne_of_lt (lt_next_of_native? found)
  by_cases touches : o.TouchesNatives
  · cases o with
    | newNative native =>
      rw [Op.apply, native?_newNative, if_neg old, found]
    | newWrapper j own =>
      exact (native?_newNative (w.modifyObject j _) _ n).trans ((if_neg old).trans found)
    | setCount m count =>
      refine (Store.get?_modify ..).trans ?_
      rw [show w.natives.get? n = _ from found]
      split <;> rfl
    | dropNative m =>
      rw [Op.apply, native?_dropNative, if_neg, found]
      rintro ⟨unheld, rfl⟩
      simp [held] at unheld
    | _ => exact touches.elim
  · rw [native?, Op.natives_apply w touches]
    exact found

end World

/-- What a change makes of the engine of a state. -/
inductive Engine.Becomes (w : World) (s : StateId) (e : Engine) : Engine → Prop where
  | same {e' : Engine} (content : e'.content = e.content) : Becomes w s e e'
  | add (cell : Cell) : Becomes w s e { e with heap := e.heap.add cell }
  | write (i : Nat) (cell : Cell) : Becomes w s e
      { e with heap := e.heap.modify i fun old => if old.isLike cell then cell else old }
  | remember (o : ObjectId) (r : Ref) (first : w.wrapperOf? s o = none) : Becomes w s e
      { e with wrappers := (o, r) :: e.wrappers.filter (·.1 != o) }
  | retain (kept : List Nat) : Becomes w s e (e.retain kept)

namespace World

variable {w w' : World} {s : StateId}

/-- What becomes of a state that has been opened: it is closed for good, or its engine has changed a
little. -/
structure Carries (s : StateId) (w w' : World) : Prop where
  known : s < w'.engines.next
  engine : ∀ e', w'.engine? s = some e' → ∃ e, w.engine? s = some e ∧ e.Becomes w s e'

namespace Carries

theorem of_engines (known : s < w.engines.next) (same : w'.engines = w.engines) :
    w.Carries s w' where
  known := by rwa [same]
  engine := by
    intro e found
    exact ⟨e, by simpa [engine?, same] using found, .same rfl⟩

theorem of_alike (known : s < w'.engines.next) (alike : w.Alike w') : Carries s w w' where
  known := known
  engine := by
    intro e' found
    obtain ⟨e, there, heap, wrappers⟩ := alike.symm.engine found
    exact ⟨e, there, .same (Prod.ext heap.symm wrappers.symm)⟩

theorem modifyEngine (known : s < w.engines.next) {t : StateId} {f : Engine → Engine}
    (becomes : ∀ e, w.engine? s = some e → t = s → e.Becomes w s (f e)) :
    Carries s w (w.modifyEngine t f) where
  known := by simpa [World.modifyEngine] using known
  engine := by
    intro e' found
    rw [engine?_modifyEngine] at found
    split at found
    · obtain ⟨e, there, rfl⟩ := Option.map_eq_some_iff.mp found
      exact ⟨e, there, becomes e there ‹_›⟩
    · exact ⟨e', found, .same rfl⟩

theorem retain (known : s < w.engines.next) (t : StateId) (kept : List Nat) :
    Carries s w (w.retain t kept).2 := by
  unfold World.retain
  split
  · exact of_engines known rfl
  · exact modifyEngine known fun e _ _ => .retain kept

theorem op (known : s < w.engines.next) (o : Op β) (permitted : o.Permitted w) :
    Carries s w (o.apply w).2 := by
  have same {w' : World} (engines : w'.engines = w.engines) : Carries s w w' :=
    of_engines known engines
  by_cases touches : o.TouchesEngines
  · cases o with
    | allocate t cell => exact modifyEngine known fun e _ _ => .add cell
    | write r cell => exact modifyEngine known fun e _ _ => .write r.index cell
    | setRunning | givePlace | anchor | expire => exact modifyEngine known fun _ _ _ => .same rfl
    | equip t part =>
      refine modifyEngine known fun e _ _ => .same ?_
      cases part <;> rfl
    | takePlace t =>
      simp only [Op.apply, World.takePlace]
      split
      · split
        · exact modifyEngine known fun _ _ _ => .same rfl
        · exact same rfl
      · exact same rfl
    | cacheWrapper t o userdata =>
      refine modifyEngine known fun e _ here => ?_
      subst here
      exact .remember o userdata (MayCache.first permitted)
    | openEngine config =>
      refine ⟨Nat.lt_of_lt_of_le known (by simp [Op.apply, World.openEngine]), fun e' found => ?_⟩
      simp only [Op.apply, World.openEngine, engine?, Store.get?_add] at found
      rw [if_neg (Nat.ne_of_lt known)] at found
      exact ⟨e', found, .same rfl⟩
    | closeEngine t =>
      refine ⟨?_, fun e' found => ⟨e', engine?_of_closeEngine found, .same rfl⟩⟩
      simp only [Op.apply, World.closeEngine]
      split
      · exact known
      · simpa using known
    | sweep t => exact retain known t _
    | _ => exact touches.elim
  · exact same (Op.engines_apply w touches)

theorem next_modifyEngine (w : World) (t : StateId) (f : Engine → Engine) :
    (w.modifyEngine t f).engines.next = w.engines.next :=
  Store.next_modify ..

theorem next_enter (scope : Scope) (w : World) : (scope.enter w).engines.next = w.engines.next := by
  cases scope with
  | operation t => exact next_modifyEngine ..
  | values => rfl

theorem next_closeScope (result : List Handle) (w : World) :
    (w.closeScope result).engines.next = w.engines.next := by
  have each (states : List StateId) (held : List Handle) (w : World) :
      (states.foldl (fun (w : World) t =>
        w.modifyEngine t fun e => e.settle t w.level result held) w).engines.next =
          w.engines.next := by
    induction states generalizing w with
    | nil => rfl
    | cons t rest ih =>
      rw [List.foldl_cons, ih]
      exact next_modifyEngine w t _
  exact each w.openStates w.heldHandles w

theorem next_exit (scope : Scope) (result : List Handle) (w : World) :
    (scope.exit result w).engines.next = w.engines.next := by
  cases scope with
  | operation t => exact (next_modifyEngine _ t _).trans (next_closeScope result w)
  | values => exact next_closeScope result w

theorem change (known : s < w.engines.next) (change : w.Change w') : Carries s w w' := by
  cases change with
  | op permitted => exact op known _ permitted
  | enter scope => exact of_alike (by rwa [next_enter]) (.enter scope w)
  | exit scope result => exact of_alike (by rwa [next_exit]) (.exit scope result w)
  | retain t kept => exact retain known t kept

end Carries

/-- A reference that an engine has given out, whether or not there is something still. -/
structure Given (r : Ref) (w : World) : Prop where
  known : r.owner < w.engines.next
  engine : ∀ e, w.engine? r.owner = some e → r.index < e.heap.next

theorem Given.of_cell? {r : Ref} {cell : Script.Cell} (there : w.cell? r = some cell) :
    Given r w := by
  obtain ⟨e, engine, found⟩ := Option.bind_eq_some_iff.mp there
  refine ⟨Store.lt_next_of_get? engine, fun e' engine' => ?_⟩
  cases engine.symm.trans engine'
  exact Store.lt_next_of_get? found

theorem Given.change {r : Ref} (given : Given r w) (change : w.Change w') : Given r w' := by
  obtain ⟨known, engine⟩ := Carries.change given.known change
  refine ⟨known, fun e' found => ?_⟩
  obtain ⟨e, before, becomes⟩ := engine e' found
  have small := given.engine e before
  cases becomes with
  | same content => rwa [(Prod.mk.inj content).1]
  | add cell => simpa using Nat.lt_succ_of_lt small
  | write i cell => simpa using small
  | remember => exact small
  | retain kept => exact Nat.lt_of_lt_of_le small (Engine.Continues.retain e kept).next

/-- A userdata that is gone, with its state or without it. -/
structure Lost (r : Ref) (w : World) : Prop extends Given r w where
  gone : ∀ e, w.engine? r.owner = some e → e.heap.get? r.index = none

theorem Lost.change {r : Ref} (change : w.Change w') (lost : Lost r w) : Lost r w' := by
  refine ⟨lost.toGiven.change change, fun e' found => ?_⟩
  obtain ⟨e, before, becomes⟩ := (Carries.change lost.known change).engine e' found
  have gone := lost.gone e before
  cases becomes with
  | same content => rw [(Prod.mk.inj content).1, gone]
  | add cell => rw [Store.get?_add, if_neg (Nat.ne_of_lt (lost.engine e before)), gone]
  | write i cell =>
    rw [Store.get?_modify, gone]
    simp
  | remember => exact gone
  | retain kept => simp [Engine.retain, Store.get?_eraseAll, gone]

theorem Lost.cell? {r : Ref} (lost : Lost r w) : w.cell? r = none := by
  unfold World.cell?
  cases engine : w.engine? r.owner with
  | none => rfl
  | some e => exact lost.gone e engine

/-- The userdata that a state remembers for an object, with the wrapper that it holds. -/
structure Wraps (s : StateId) (o : ObjectId) (r : Ref) (n : NativeId) (owning : Bool)
    (ownership : Ownership) (w : World) : Prop where
  own : r.owner = s
  engine : ∃ e, w.engine? s = some e ∧ e.wrappers.find? (·.1 == o) = some (o, r) ∧
    e.heap.get? r.index = some (.native n)
  native : w.native? n = some (.wrapper o owning ownership)

/-- What is found first is found first among what is kept if it is kept. -/
private theorem find?_filter_of_kept {items : List α} {p q : α → Bool} {a : α}
    (found : items.find? q = some a) (kept : p a = true) : (items.filter p).find? q = some a := by
  obtain ⟨holds, before, after, rfl, none⟩ := List.find?_eq_some_iff_append.mp found
  rw [List.find?_filter]
  refine List.find?_eq_some_iff_append.mpr ⟨by simp [kept, holds], before, after, rfl, ?_⟩
  intro b member
  have missed := none b member
  simp only [Bool.not_eq_true'] at missed
  simp [missed]

namespace Wraps

variable {o : ObjectId} {r : Ref} {n : NativeId} {owning : Bool} {ownership : Ownership}

theorem of_wrapperOf? (sound : w.Sound) (found : w.wrapperOf? s o = some r) :
    ∃ n owning ownership, Wraps s o r n owning ownership w := by
  obtain ⟨e, engine, rest⟩ := Option.bind_eq_some_iff.mp found
  obtain ⟨⟨o', r'⟩, remembered, looks⟩ := Option.bind_eq_some_iff.mp rest
  have own := (sound.isolated s e engine).wrappers _ (List.mem_of_find?_eq_some remembered)
  have object : o' = o := by simpa using List.find?_some remembered
  dsimp only at looks own
  split at looks
  · rename_i n cell
    split at looks
    · rename_i i owning ownership native
      split at looks
      · rename_i same
        obtain rfl := Option.some.inj looks
        refine ⟨n, owning, ownership, own, ⟨e, engine, object ▸ remembered, ?_⟩, same ▸ native⟩
        simpa [World.cell?, own, engine] using cell
      · cases looks
    · cases looks
  · cases looks

section Looking

variable (wraps : Wraps s o r n owning ownership w)
include wraps

theorem cell? : w.cell? r = some (.native n) := by
  obtain ⟨e, engine, -, cell⟩ := wraps.engine
  simp [World.cell?, wraps.own, engine, cell]

theorem wrapperOf? : w.wrapperOf? s o = some r := by
  obtain ⟨e, engine, remembered, -⟩ := wraps.engine
  simp [World.wrapperOf?, engine, remembered, wraps.cell?, wraps.native]

theorem alike (alike : w.Alike w') : Wraps s o r n owning ownership w' where
  own := wraps.own
  engine := by
    obtain ⟨e, engine, remembered, cell⟩ := wraps.engine
    obtain ⟨e', there, heap, wrappers⟩ := alike.engine engine
    exact ⟨e', there, by rw [wrappers, remembered], by rw [heap, cell]⟩
  native := by rw [alike.native?, wraps.native]

theorem native?_change (change : w.Change w') :
    w'.native? n = some (.wrapper o owning ownership) := by
  have held := holdsNative_of_cell wraps.cell?
  cases change with
  | op permitted => exact wrapper_apply _ wraps.native held
  | enter scope => rw [(Alike.enter scope w).native?, wraps.native]
  | exit scope result => rw [(Alike.exit scope result w).native?, wraps.native]
  | retain t kept =>
    unfold retain
    split <;> exact wraps.native

/-- A state goes on remembering a userdata until that is collected. -/
theorem change (change : w.Change w') : Wraps s o r n owning ownership w' ∨ Lost r w' := by
  have native := wraps.native?_change change
  obtain ⟨e, engine, remembered, cell⟩ := wraps.engine
  have small := Store.lt_next_of_get? cell
  have carried := (Carries.change (Store.lt_next_of_get? engine) change).engine
  have given : Given r w' := (Given.of_cell? wraps.cell?).change change
  cases closed : w'.engine? s with
  | none =>
    refine .inr ⟨given, fun e' found => ?_⟩
    rw [wraps.own, closed] at found
    cases found
  | some e' =>
    obtain ⟨e₀, before, becomes⟩ := carried e' closed
    obtain rfl := Option.some.inj (engine.symm.trans before)
    have still (wrappers : e'.wrappers.find? (·.1 == o) = some (o, r))
        (heap : e'.heap.get? r.index = some (.native n)) : Wraps s o r n owning ownership w' :=
      ⟨wraps.own, ⟨e', closed, wrappers, heap⟩, native⟩
    cases becomes with
    | same content =>
      obtain ⟨heap, wrappers⟩ := Prod.mk.inj content
      exact .inl (still (by rw [wrappers, remembered]) (by rw [heap, cell]))
    | add new =>
      refine .inl (still remembered ?_)
      rw [Store.get?_add, if_neg (Nat.ne_of_lt small), cell]
    | write i new =>
      refine .inl (still remembered ?_)
      rw [Store.get?_modify, cell]
      split <;> rfl
    | remember o' r' first =>
      have other : o' ≠ o := by
        rintro rfl
        rw [wraps.wrapperOf?] at first
        cases first
      refine .inl (still ?_ cell)
      rw [List.find?_cons_of_neg (by simpa using other)]
      exact find?_filter_of_kept remembered (by simpa using other.symm)
    | retain kept =>
      have heap : (e.retain kept).heap.get? r.index =
          if kept.contains r.index then some (.native n) else none := by
        have there : r.index ∈ e.heap.ids := Store.mem_ids.mpr ⟨_, cell⟩
        simp only [Engine.retain, Store.get?_eraseAll, List.mem_filter, there, cell]
        cases kept.contains r.index <;> simp
      cases stays : kept.contains r.index with
      | true =>
        refine .inl (still (find?_filter_of_kept remembered stays) ?_)
        rw [heap, if_pos stays]
      | false =>
        refine .inr ⟨given, fun e' found => ?_⟩
        rw [wraps.own, closed] at found
        obtain rfl := Option.some.inj found
        rw [heap, stays]
        rfl

/-- Wherever a userdata is still there, its state remembers it for the same object, and it holds the
same wrapper. -/
theorem later (later : w.Later w') (present : w'.cell? r ≠ none) :
    Wraps s o r n owning ownership w' := by
  have step (w w' : World) (change : w.Change w')
      (either : Wraps s o r n owning ownership w ∨ Lost r w) :
      Wraps s o r n owning ownership w' ∨ Lost r w' := by
    rcases either with wraps | lost
    · exact wraps.change change
    · exact .inr (lost.change change)
  rcases later.keeps (P := fun w => Wraps s o r n owning ownership w ∨ Lost r w) step (.inl wraps)
    with wraps | lost
  · exact wraps
  · exact absurd lost.cell? present

end Looking

end Wraps

/-- A userdata for a wrapper that is there, once it is remembered. -/
theorem Wraps.of_cached {o : ObjectId} {r : Ref} {n : NativeId} {owning : Bool}
    {ownership : Ownership}
    (own : r.owner = s) (cell : w.cell? r = some (.native n))
    (native : w.native? n = some (.wrapper o owning ownership)) :
    Wraps s o r n owning ownership (w.cacheWrapper s o r) := by
  subst own
  obtain ⟨e, engine, there⟩ := Option.bind_eq_some_iff.mp cell
  refine ⟨rfl, ⟨{ e with wrappers := (o, r) :: e.wrappers.filter (·.1 != o) }, ?_, ?_, there⟩,
    native⟩
  · rw [cacheWrapper, engine?_modifyEngine, if_pos rfl, engine]
    rfl
  · simp

end World

variable {w : World} {s : StateId} {o : ObjectId}

/-- To wrap an object again gives the userdata that its state remembers. -/
theorem World.Wraps.meets_wrapObject {r : Ref} {n : NativeId} {owning : Bool}
    {ownership : Ownership} (wraps : w.Wraps s o r n owning ownership) (own : Ownership) :
    (wrapObject s o own).Meets
      (fun result w' => (∃ a, result = .ok (.handle ⟨.userdata, r, a⟩)) ∧ w.Alike w') w := by
  have entered := World.Alike.enter (.operation s) w
  refine Meets.view_iff.mpr ?_
  rw [(wraps.alike entered).wrapperOf?]
  exact ⟨trivial, ⟨_, rfl⟩, entered.trans ((World.Alike.anchor _ r).trans (.exit _ _ _))⟩

/-- To wrap an object that a state has no wrapper for makes one, which is the owner unless there is
one already. -/
theorem meets_wrapObject (sound : w.Sound) (isOpen : w.isOpen s) (none : w.wrapperOf? s o = none)
    (own : Ownership) : (wrapObject s o own).Meets (fun result w' => ∃ r a,
      result = .ok (.handle ⟨.userdata, r, a⟩) ∧
        w'.Wraps s o r w.natives.next (!((w.object? o).map (·.owned)).getD true) own) w := by
  have entered := World.Alike.enter (.operation s) w
  have sound₀ := sound.enter (.operation s)
  refine Meets.view_iff.mpr ?_
  have unwrapped := (entered.wrapperOf? s o).trans none
  rw [unwrapped]
  refine Meets.perform_iff.mpr ⟨trivial, ?_⟩
  have sound₁ := Op.Permitted.sound (o := .newWrapper o own) trivial sound₀
  refine Meets.bind_iff.mpr ((meets_wrapNativeId s _ sound₁).mono ?_)
  rintro _ w' ⟨-, alike, a, rfl⟩
  have may := alike.mayCache (World.mayCache_of_none sound₀ unwrapped own)
  have opened : ((Op.newWrapper o own).apply ((Scope.operation s).enter w)).2.isOpen s := by
    rw [← entered.isOpen] at isOpen
    exact isOpen
  have cell := (alike.cell? _).trans (World.cell?_allocate opened _)
  have native : w'.native? w.natives.next =
      some (.wrapper o (!((w.object? o).map (·.owned)).getD true) own) := by
    rw [alike.native?, ← entered.natives]
    have objects : ((Scope.operation s).enter w).object? o = w.object? o := by
      simp only [World.object?, entered.objects]
    refine (World.native?_newNative _ _ _).trans ((if_pos rfl).trans ?_)
    rw [objects]
  refine ⟨may, _, a, rfl, ?_⟩
  rw [← entered.natives] at native ⊢
  exact (World.Wraps.of_cached rfl cell native).alike (.exit _ _ _)

end ScriptBridge
