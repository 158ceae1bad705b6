import ScriptBridge.Proofs.Ends
import ScriptBridge.Proofs.Ownership
import ScriptBridge.Proofs.Tree

/-!
What it means to dispose of objects: to end native objects, to destroy host objects and to take them
out. While no receiver of a signal is called, a world only dwindles by that.
-/

namespace ScriptBridge

open Script (Cell)

/-- The cells of an engine, and the places from which it needs them. -/
def Engine.grasp (e : Engine) : Store Cell × (Ref → Prop) := (e.heap, (· ∈ e.roots))

/-- A released anchor holds what it held before, until the next collection. -/
theorem Engine.grasp_settle (e : Engine) (s : StateId) (level : Nat) (result held : List Handle) :
    (e.settle s level result held).grasp = e.grasp := by
  have target (a b : Anchor) (kept : a.settled s level result held = some b) :
      b.target = a.target := by
    simp only [Anchor.settled] at kept
    grind
  refine Prod.ext rfl (funext fun r => propext ?_)
  simp only [Engine.grasp, Engine.roots, Engine.settle, Engine.released, List.mem_append,
    List.mem_cons, List.mem_map, List.mem_filterMap, List.mem_filter, Option.isNone_iff_eq_none]
  constructor
  · grind
  · intro root
    rcases root with (others | ⟨a, member, rfl⟩) | stale
    · exact .inl (.inl others)
    · cases kept : a.settled s level result held with
      | none => exact .inr (.inl ⟨a, ⟨member, kept⟩, rfl⟩)
      | some b => exact .inl (.inr ⟨b, ⟨a, member, kept⟩, target a b kept⟩)
    · exact .inr (.inr stale)

namespace World

/-- What disposing of objects never does: it makes nothing, changes no cell and no stored value,
brings no object back and gives none a parent. -/
structure Wanes (w w' : World) : Prop where
  engines : ∀ s, (w'.engine? s).map Engine.grasp = (w.engine? s).map Engine.grasp
  natives : ∀ n native, w'.native? n = some native → w.native? n = some native
  values : ∀ o, (w'.object? o).map (·.values) = (w.object? o).map (·.values) ∨ w'.object? o = none
  destroyed : ∀ o, w.isDestroyed o = true → w'.isDestroyed o = true
  orphans : ∀ o, w.parentOf o = none → w'.parentOf o = none
  children : ∀ p, w'.childrenOf p ⊆ w.childrenOf p

namespace Wanes

variable {w w₁ w' : World}

theorem refl (w : World) : w.Wanes w where
  engines := fun _ => rfl
  natives := fun _ _ => id
  values := fun _ => .inl rfl
  destroyed := fun _ => id
  orphans := fun _ => id
  children := fun _ _ => id

theorem trans (first : w.Wanes w₁) (second : w₁.Wanes w') : w.Wanes w' where
  engines := fun s => (second.engines s).trans (first.engines s)
  natives := fun n native found => first.natives n native (second.natives n native found)
  values := by
    intro o
    rcases second.values o with same | gone
    · rcases first.values o with before | gone
      · exact .inl (same.trans before)
      · rw [gone] at same
        exact .inr (Option.map_eq_none_iff.mp same)
    · exact .inr gone
  destroyed := fun o dead => second.destroyed o (first.destroyed o dead)
  orphans := fun o root => second.orphans o (first.orphans o root)
  children := fun p _ child => first.children p (second.children p child)

/-- Where only engines differ, and only in what they are not asked for. -/
theorem of_engines (engines : ∀ s, (w'.engine? s).map Engine.grasp = (w.engine? s).map Engine.grasp)
    (natives : w'.natives = w.natives) (objects : w'.objects = w.objects) : w.Wanes w' where
  engines := engines
  natives := by simp [native?, natives]
  values := fun o => .inl (by simp only [object?, objects])
  destroyed := by simp [isDestroyed, object?, objects]
  orphans := by simp [parentOf, object?, objects]
  children := by simp [childrenOf, object?, objects]

theorem modifyEngine (w : World) (s : StateId) {f : Engine → Engine}
    (same : ∀ e : Engine, (f e).grasp = e.grasp) : w.Wanes (w.modifyEngine s f) := by
  refine of_engines (fun t => ?_) rfl rfl
  rw [engine?_modifyEngine]
  split
  · rw [Option.map_map]
    exact congrArg (Option.map · _) (funext same)
  · rfl

theorem enter (s : Scope) (w : World) : w.Wanes (s.enter w) := by
  have opened : w.Wanes w.openScope := of_engines (fun _ => rfl) rfl rfl
  cases s with
  | operation st => exact opened.trans (modifyEngine _ st fun _ => rfl)
  | values => exact opened

theorem closeScope (w : World) (result : List Handle) : w.Wanes (w.closeScope result) := by
  have each (states : List StateId) (held : List Handle) (w : World) :
      w.Wanes (states.foldl (fun (w : World) s =>
        w.modifyEngine s fun e => e.settle s w.level result held) w) := by
    induction states generalizing w with
    | nil => exact refl w
    | cons s rest ih =>
      exact (modifyEngine w s fun e => e.grasp_settle s w.level result held).trans (ih _)
  obtain ⟨engines, natives, values, destroyed, orphans, children⟩ :=
    each w.openStates w.heldHandles w
  exact ⟨engines, natives, values, destroyed, orphans, children⟩

theorem exit (s : Scope) (result : List Handle) (w : World) : w.Wanes (s.exit result w) := by
  cases s with
  | operation st => exact (closeScope w result).trans (modifyEngine _ st fun _ => rfl)
  | values => exact closeScope w result

theorem values_retire (w : World) (p o : ObjectId) :
    ((w.retire p).2.object? o).map (·.values) = (w.object? o).map (·.values) := by
  have marked : ((w.markDestroyed p).object? o).map (·.values) = (w.object? o).map (·.values) := by
    refine map_modifyObject (fun object => ?_) o
    split <;> rfl
  refine ((map_releaseChildren (fun _ _ _ => rfl) _ p o).trans ?_).trans marked
  exact map_detach (fun _ _ _ => rfl) _ p o

theorem retire (w : World) (p : ObjectId) : w.Wanes (w.retire p).2 where
  engines := by simp [engine?, (OnlyObjects.retire w p).engines]
  natives := by simp [native?, (OnlyObjects.retire w p).natives]
  values := fun o => .inl (values_retire w p o)
  destroyed := by
    intro o dead
    simp [isDestroyed_retire, dead]
  orphans := by
    intro o root
    have kept : (w.markDestroyed p).parentOf o = none := by
      rw [← root]
      refine w.parentOf_modifyObject (fun object => ?_) o
      split <;> rfl
    simp [World.retire, parentOf_releaseChildren, parentOf_detach, kept]
  children := by
    intro q
    have kept : (w.markDestroyed p).childrenOf q = w.childrenOf q := by
      refine w.childrenOf_modifyObject (fun object => ?_) q
      split <;> rfl
    simp only [World.retire, childrenOf_releaseChildren, childrenOf_detach, kept]
    split
    · exact List.nil_subset _
    · split
      · exact List.filter_subset_self _
      · exact fun _ => id

theorem dropNative (w : World) (n : NativeId) : w.Wanes (w.dropNative n).2 where
  engines := by simp [engine?, engines_dropNative]
  natives := by
    intro m native found
    rw [native?_dropNative] at found
    split at found
    · cases found
    · exact found
  values := fun o => .inl (map_dropNative (fun _ _ => rfl) w n o)
  destroyed := by simp [isDestroyed_dropNative]
  orphans := by simp [parentOf_dropNative]
  children := by
    intro p
    have same := map_dropNative (g := (·.children)) (fun _ _ => rfl) w n p
    simp [childrenOf, same]

theorem reap (w : World) : w.Wanes (Op.reap.apply w).2 := by
  simp only [Op.apply, World.reap]
  cases w.objects.ids.find? (!w.heldObjects.contains ·) with
  | none => exact refl w
  | some i =>
    have only := OnlyObjects.releaseChildren w i
    have look (o : ObjectId) : ({ w.releaseChildren i with
        objects := (w.releaseChildren i).objects.erase i } : World).object? o =
          if i = o then none else (w.releaseChildren i).object? o := Store.get?_erase ..
    constructor
    · simp [engine?, only.engines]
    · simp [native?, only.natives]
    · intro o
      rw [look]
      split
      · exact .inr rfl
      · exact .inl (map_releaseChildren (fun _ _ _ => rfl) w i o)
    · intro o dead
      unfold isDestroyed
      rw [look]
      split
      · rfl
      · exact (isDestroyed_releaseChildren w i o).trans dead
    · intro o root
      unfold parentOf
      rw [look]
      split
      · rfl
      · exact (parentOf_releaseChildren w i o).trans (by simp [root])
    · intro p
      unfold childrenOf
      rw [look]
      split
      · exact List.nil_subset _
      · rename_i other
        have same := childrenOf_releaseChildren w i p
        rw [if_neg other] at same
        intro child member
        change child ∈ w.childrenOf p
        rw [← same]
        exact member

theorem cell? (wanes : w.Wanes w') (r : Ref) : w'.cell? r = w.cell? r := by
  have look (w : World) : w.cell? r =
      ((w.engine? r.owner).map Engine.grasp).bind fun grasp => grasp.1.get? r.index := by
    simp only [World.cell?, Option.bind_eq_bind, Option.bind_map]
    rfl
  rw [look, look, wanes.engines]

end Wanes

/-- What holds a native object: a userdata, or a property. -/
theorem holdsNative_iff {w : World} {n : NativeId} : w.holdsNative n = true ↔
    (∃ r, w.cell? r = some (.native n)) ∨
      ∃ o object, w.object? o = some object ∧ ∃ v ∈ object.values, n ∈ v.2.natives := by
  unfold holdsNative
  simp only [Bool.or_eq_true, List.any_eq_true, Store.mem_items, List.contains_iff_mem]
  refine or_congr ?_ ?_
  · constructor
    · rintro ⟨e, ⟨s, engine⟩, cell, ⟨i, found⟩, same⟩
      split at same
      · rename_i m
        obtain rfl : m = n := by simpa using same
        exact ⟨⟨s, i⟩, Option.bind_eq_some_iff.mpr ⟨e, engine, found⟩⟩
      · cases same
    · rintro ⟨r, found⟩
      obtain ⟨e, engine, cell⟩ := Option.bind_eq_some_iff.mp found
      exact ⟨e, ⟨_, engine⟩, .native n, ⟨_, cell⟩, by simp⟩
  · constructor
    · rintro ⟨object, ⟨o, found⟩, v, member, holds⟩
      exact ⟨o, object, found, v, member, holds⟩
    · rintro ⟨o, object, found, v, member, holds⟩
      exact ⟨object, ⟨o, found⟩, v, member, holds⟩

/-- Nothing gets held again. -/
theorem Wanes.holdsNative {w w' : World} (wanes : w.Wanes w') {n : NativeId}
    (held : w'.holdsNative n = true) : w.holdsNative n = true := by
  rw [holdsNative_iff] at held ⊢
  rcases held with ⟨r, cell⟩ | ⟨o, object, found, v, member, holds⟩
  · exact .inl ⟨r, (wanes.cell? r).symm.trans cell⟩
  · rcases wanes.values o with same | gone
    · rw [found] at same
      obtain ⟨before, there, values⟩ := Option.map_eq_some_iff.mp same.symm
      exact .inr ⟨o, before, there, v, values ▸ member, holds⟩
    · rw [found] at gone
      cases gone

end World

namespace Runs

variable {α β : Type} {w w' : World} {moments : List Moment}

theorem of_within [Holding α] {s : Scope} {body : Action α} {result : Except Fault α}
    (runs : Runs (Action.within s body) w moments (some result) w') :
    ∃ w₁, Runs body (s.enter w) moments (some result) w₁ ∧
      w' = s.exit (Scope.kept handles result) w₁ := by
  cases runs with
  | scopeDone inner rest =>
    rename_i w₁ _ _ ended
    cases ended with
    | ok a =>
      cases rest
      exact ⟨w₁, by simpa using inner, rfl⟩
    | error f =>
      cases rest
      exact ⟨w₁, by simpa using inner, rfl⟩

/-- A program whose failure is a result has ended in one way or the other. -/
theorem of_attempt [Holding α] {body : Action α} {result : Except Fault (Except BridgeError α)}
    (runs : Runs (Action.attempt body) w moments (some result) w') :
    ∃ ended w₁, Runs body (Scope.values.enter w) moments (some ended) w₁ ∧
      result = Fault.caught ended ∧ w' = Scope.values.exit (Scope.kept handles ended) w₁ := by
  cases runs with
  | scopeDone inner rest =>
    rename_i w₁ _ _ ended
    rcases ended with (e | _) | a <;> cases rest <;>
      exact ⟨_, w₁, by simpa using inner, rfl, rfl⟩

/-- Of a sequence that has ended, the first program has, and its failure is one of the sequence. -/
theorem first_of_bind {a : Action α} {f : α → Action β} {result : Except Fault β}
    (runs : Runs (a >>= f) w moments (some result) w') :
    ∃ ended w₁ first later, moments = first ++ later ∧ Runs a w first (some ended) w₁ ∧
      ∀ e, ended = .error e → result = .error e := by
  cases result with
  | ok b =>
    obtain ⟨x, w₁, first, later, split, inner, -⟩ := runs.of_bind
    exact ⟨.ok x, w₁, first, later, split, inner, by simp⟩
  | error e =>
    rcases runs.of_bind_error with failed | ⟨x, w₁, first, later, split, inner, -⟩
    · exact ⟨.error e, w', moments, [], by simp, failed, by simp⟩
    · exact ⟨.ok x, w₁, first, later, split, inner, by simp⟩

theorem of_ask {r : Request α} {result : Except Fault α}
    (runs : Runs (Action.ask r) w moments (some result) w') :
    ∃ later, moments = .request r w :: later := by
  change Runs (.request r .pure) w moments _ w' at runs
  cases runs with
  | requestFailed | requestDone => exact ⟨_, rfl⟩

/-- A program of which the result does not matter. -/
theorem inside_discard {a : Action α} {result : Except Fault Unit}
    (runs : Runs (discard a) w moments (some result) w') :
    ∃ inner, Runs a w moments (some inner) w' ∧ result = inner.map fun _ => () := by
  rcases Runs.of_sequence runs with ⟨x, w₁, first, later, rfl, inner, done⟩ | ⟨none, -⟩ |
    ⟨e, same, failed⟩
  · obtain ⟨rfl, rfl, rfl⟩ := done.of_pure
    exact ⟨.ok x, by simpa using inner, rfl⟩
  · cases none
  · cases same
    exact ⟨.error e, failed, rfl⟩

theorem of_discard {a : Action α} (runs : Runs (discard a) w moments (some (.ok ())) w') :
    ∃ x, Runs a w moments (some (.ok x)) w' := by
  obtain ⟨e | x, inner, same⟩ := runs.inside_discard
  · cases same
  · exact ⟨x, inner⟩

/-- Each item of a list has its turn. -/
theorem of_forM {items : List α} {f : α → Action Unit} (safe : ∀ item ∈ items, (f item).Safe)
    (sound : w.Sound) (runs : Runs (items.forM f) w moments (some (.ok ())) w') {item : α}
    (member : item ∈ items) :
    ∃ turn v v', turn <:+: moments ∧ w.Later v ∧ v'.Later w' ∧
      Runs (f item) v turn (some (.ok ())) v' := by
  induction items generalizing w moments with
  | nil => cases member
  | cons head rest ih =>
    obtain ⟨⟨⟩, w₁, first, later, rfl, here, going⟩ := runs.of_bind
    have safeRest : ∀ item ∈ rest, (f item).Safe := fun item member => safe item (by simp [member])
    have passed := ((safe head (by simp) w sound).passage sound here).1.arrives
    have sound₁ := passed.sound sound
    have onward := ((Action.Respects.forM safeRest w₁ sound₁).passage sound₁ going).1.arrives
    rcases List.mem_cons.mp member with rfl | member
    · exact ⟨first, w, w₁, ⟨[], later, rfl⟩, .refl, onward, here⟩
    · obtain ⟨turn, v, v', within, before, after, inner⟩ := ih safeRest sound₁ going member
      exact ⟨turn, v, v', within.trans (List.suffix_append first later).isInfix,
        passed.trans before, after, inner⟩

/-- A request for destruction that has been granted. -/
theorem of_destroy {o : ObjectId} (runs : Runs (.ask (.destroy o)) w moments (some (.ok ())) w') :
    ∃ inner, moments = .request (.destroy o) w :: inner ∧
      Runs (destroyObject o) w inner (some (.ok ())) w' := by
  change Runs (.request (.destroy o) .pure) w moments _ w' at runs
  cases runs with
  | requestDone begins inner rest =>
    cases rest
    cases begins with
    | program => exact ⟨_, by simp, inner⟩
    | refused => cases inner

end Runs

/-- What is done when the signal that tells of a destruction is emitted. -/
def announce (o : ObjectId) : Action Unit := discard (.attempt (emitSignal o "destroyed()" []))

/-- Whether an object tells of its destruction. -/
def World.tells (w : World) (o : ObjectId) : Bool :=
  ((w.classOf o).signal? "destroyed()").isSome

/-- A destruction that has begun with an object that was alive: the object tells of it, leaves the
tree, and its children follow. -/
theorem Runs.of_destroyObject {o : ObjectId} {w w' : World} {moments : List Moment}
    (alive : w.isDestroyed o = false)
    (runs : Runs (destroyObject o) w moments (some (.ok ())) w') :
    ∃ told w₁ later,
      moments = .op (.view (·.isDestroyed o)) w :: .op (.view (·.tells o)) w ::
        (told ++ .op (.retire o) w₁ :: later) ∧
      (if w.tells o then Runs (announce o) w told (some (.ok ())) w₁ else told = [] ∧ w₁ = w) ∧
      Runs ((w₁.retire o).1.forM fun child => .ask (.destroy child)) (w₁.retire o).2 later
        (some (.ok ())) w' := by
  obtain ⟨_, rfl, looked⟩ := runs.of_perform
  rw [show (Op.apply (.view (·.isDestroyed o)) w).1 = false from alive] at looked
  obtain ⟨_, rfl, going⟩ := looked.of_perform
  dsimp only at going
  split at going
  · rename_i tells
    obtain ⟨⟨⟩, w₁, told, _, rfl, telling, retiring⟩ := going.of_bind
    obtain ⟨later, rfl, children⟩ := retiring.of_perform
    refine ⟨told, w₁, later, rfl, ?_, children⟩
    rw [if_pos (show w.tells o = true from tells)]
    exact telling
  · rename_i silent
    obtain ⟨later, rfl, children⟩ := going.of_perform
    refine ⟨[], w, later, rfl, ?_, children⟩
    rw [if_neg (show ¬ w.tells o = true from silent)]
    exact ⟨rfl, rfl⟩


/-- A world in which there is less: no native object is new or held again, no object is back or has
a parent or a child that it did not have. -/
structure World.Dwindles (w w' : World) : Prop where
  natives : ∀ n native, w'.native? n = some native → w.native? n = some native
  held : ∀ n, w'.holdsNative n = true → w.holdsNative n = true
  destroyed : ∀ o, w.isDestroyed o = true → w'.isDestroyed o = true
  orphans : ∀ o, w.parentOf o = none → w'.parentOf o = none
  children : ∀ p, w'.childrenOf p ⊆ w.childrenOf p

namespace World.Dwindles

variable {w w₁ w' : World} {n : NativeId}

theorem trans (first : w.Dwindles w₁) (second : w₁.Dwindles w') : w.Dwindles w' where
  natives := fun n native found => first.natives n native (second.natives n native found)
  held := fun n held => first.held n (second.held n held)
  destroyed := fun o dead => second.destroyed o (first.destroyed o dead)
  orphans := fun o root => second.orphans o (first.orphans o root)
  children := fun p _ child => first.children p (second.children p child)

theorem unheld (dwindles : w.Dwindles w') (unheld : w.holdsNative n = false) :
    w'.holdsNative n = false := by
  cases held : w'.holdsNative n with
  | false => rfl
  | true => exact unheld.symm.trans (dwindles.held n held) ▸ rfl

end World.Dwindles

theorem World.Wanes.dwindles {w w' : World} (wanes : w.Wanes w') : w.Dwindles w' where
  natives := wanes.natives
  held := fun _ => wanes.holdsNative
  destroyed := wanes.destroyed
  orphans := wanes.orphans
  children := wanes.children

/-- What is done to dispose of objects. -/
def Op.Disposes : Op β → Prop
  | .view _ | .retire _ | .dropNative _ | .reap => True
  | _ => False

def Request.Disposes : Request β → Prop
  | .destroy _ | .deliver .. => True
  | _ => False

/-- Whether a program does nothing but dispose of objects, and call receivers. -/
def Action.Disposing : {α : Type} → Action α → Prop
  | _, .pure _ | _, .fail _ => True
  | _, .op o next => o.Disposes ∧ ∀ b, (next b).Disposing
  | _, .request r next => r.Disposes ∧ ∀ b, (next b).Disposing
  | _, .scope s _ body next => s = .values ∧ body.Disposing ∧ ∀ result, (next result).Disposing

/-- No receiver of a signal is called at these moments. -/
def Quiet (moments : List Moment) : Prop :=
  ∀ c o args w, Moment.request (.deliver c o args) w ∉ moments

namespace Quiet

variable {moments later : List Moment}

theorem append : Quiet (moments ++ later) ↔ Quiet moments ∧ Quiet later := by
  simp only [Quiet, List.mem_append, not_or]
  exact ⟨fun quiet => ⟨fun c o args w => (quiet c o args w).1, fun c o args w => (quiet c o args w).2⟩,
    fun quiet c o args w => ⟨quiet.1 c o args w, quiet.2 c o args w⟩⟩

theorem cons {m : Moment} (quiet : Quiet (m :: moments)) : Quiet moments :=
  fun c o args w member => quiet c o args w (List.mem_cons_of_mem _ member)

end Quiet

namespace Action.Disposing

variable {α β : Type}

theorem bind {a : Action α} {f : α → Action β} (first : a.Disposing) (rest : ∀ x, (f x).Disposing) :
    (a >>= f).Disposing := by
  change (a.bind f).Disposing
  induction a with
  | pure a => exact rest a
  | fail => trivial
  | op o next ih => exact ⟨first.1, fun b => ih b (first.2 b) rest⟩
  | request r next ih => exact ⟨first.1, fun b => ih b (first.2 b) rest⟩
  | scope s held body next _ ih =>
    exact ⟨first.1, first.2.1, fun result => ih result (first.2.2 result) rest⟩

theorem forM {items : List α} {f : α → Action Unit} (each : ∀ item, (f item).Disposing) :
    (items.forM f).Disposing := by
  induction items with
  | nil => trivial
  | cons item rest ih => exact (each item).bind fun _ => ih

theorem mapM {items : List α} {f : α → Action β} (each : ∀ item, (f item).Disposing) :
    (items.mapM f).Disposing := by
  induction items with
  | nil => trivial
  | cons item rest ih =>
    rw [List.mapM_cons]
    exact (each item).bind fun _ => ih.bind fun _ => trivial

theorem perform {o : Op α} {f : α → Action β} (disposes : o.Disposes)
    (rest : ∀ x, (f x).Disposing) : (Action.perform o >>= f).Disposing :=
  ⟨disposes, rest⟩

theorem ask {r : Request α} (disposes : r.Disposes) : (Action.ask r).Disposing :=
  ⟨disposes, fun _ => trivial⟩

theorem discard {a : Action α} (disposing : a.Disposing) : (Functor.discard a).Disposing :=
  bind (f := fun _ => Pure.pure ()) disposing fun _ => trivial

theorem attempt [Holding α] {body : Action α} (disposing : body.Disposing) :
    (Action.attempt body).Disposing := by
  refine ⟨rfl, disposing, ?_⟩
  rintro ((_ | _) | _) <;> trivial

theorem emitSignal (o : ObjectId) (signal : String) (args : List HostValue) :
    (emitSignal o signal args).Disposing := by
  refine perform trivial fun receivers => (mapM fun c => ?_).bind fun outcomes => ?_
  · exact attempt (ask trivial)
  · split <;> trivial

theorem announce (o : ObjectId) : (announce o).Disposing := discard (attempt (emitSignal o _ _))

theorem destroyObject (o : ObjectId) : (destroyObject o).Disposing := by
  have retiring : (do
      let children ← Action.perform (.retire o)
      children.forM fun child => .ask (.destroy child) : Action Unit).Disposing :=
    perform trivial fun children => forM fun child => ask trivial
  refine perform trivial fun dead => ?_
  split
  · trivial
  · refine perform trivial fun tells => ?_
    split
    · exact (announce o).bind fun _ => retiring
    · exact retiring

theorem releaseNative (n : NativeId) : (releaseNative n).Disposing := by
  refine perform trivial fun native => ?_
  split
  · refine perform trivial fun seen => ?_
    split
    · exact ask trivial
    · trivial
  · trivial

theorem reapAll (n : Nat) : (State.reapAll n).Disposing := by
  induction n with
  | zero => trivial
  | succ n ih =>
    refine perform trivial fun reaped => ?_
    split
    · trivial
    · exact (forM fun n => releaseNative n).bind fun _ => ih

theorem finalize (natives : List NativeId) : (State.finalize natives).Disposing :=
  forM fun n => (releaseNative n).bind fun _ => perform trivial fun _ => reapAll _

end Action.Disposing

theorem World.Wanes.op {o : Op β} (disposes : o.Disposes) (w : World) : w.Wanes (o.apply w).2 := by
  cases o with
  | view => exact .refl w
  | retire p => exact .retire w p
  | dropNative n => exact .dropNative w n
  | reap => exact .reap w
  | _ => exact disposes.elim

/-- A request to destroy an object is carried out as disposing of it, or not at all. -/
theorem Request.Begins.disposing {r : Request β} {a : Action β} {w w₁ : World}
    {moments : List Moment} (begins : r.Begins w a w₁) (disposes : r.Disposes)
    (quiet : Quiet (.request r w :: moments)) : w₁ = w ∧ a.Disposing := by
  cases r with
  | destroy o =>
    obtain ⟨same, rfl | rfl⟩ := begins.plain trivial
    · exact ⟨same, .destroyObject o⟩
    · exact ⟨same, trivial⟩
  | deliver c o args => exact absurd List.mem_cons_self (quiet c o args w)
  | _ => exact disposes.elim

/-- What a program that disposes of objects does while no receiver is called. -/
theorem Runs.wanes {a : Action α} {w w' : World} {moments : List Moment}
    {outcome : Option (Except Fault α)} (runs : Runs a w moments outcome w')
    (disposing : a.Disposing) (quiet : Quiet moments) : w.Wanes w' := by
  induction runs with
  | stop | pure | fail => exact .refl _
  | op rest ih => exact (World.Wanes.op disposing.1 _).trans (ih (disposing.2 _) quiet.cons)
  | requestStopped begins inner ih | requestFailed begins inner ih =>
    obtain ⟨rfl, inside⟩ := begins.disposing disposing.1 quiet
    exact ih inside quiet.cons
  | requestDone begins inner rest ihInner ihRest =>
    obtain ⟨rfl, inside⟩ := begins.disposing disposing.1 quiet
    obtain ⟨during, after⟩ := Quiet.append.mp quiet.cons
    exact (ihInner inside during).trans (ihRest (disposing.2 _) after)
  | scopeStopped inner ih => exact (World.Wanes.enter _ _).trans (ih disposing.2.1 quiet)
  | scopeDone inner rest ihInner ihRest =>
    obtain ⟨inside, after⟩ := Quiet.append.mp quiet
    exact (((World.Wanes.enter _ _).trans (ihInner disposing.2.1 inside)).trans (.exit _ _ _)).trans
      (ihRest (disposing.2.2 _) after)

/-- A signal that has been emitted without a call of a receiver has none. -/
theorem Runs.of_announce {p : ObjectId} {w w' : World} {moments : List Moment}
    (runs : Runs (announce p) w moments (some (.ok ())) w') (quiet : Quiet moments) :
    w.Alike w' ∧ ∀ β (r : Request β) v, Moment.request r v ∉ moments := by
  obtain ⟨x, attempted⟩ := runs.of_discard
  obtain ⟨ended, w₁, emitting, -, rfl⟩ := attempted.of_attempt
  obtain ⟨later, rfl, going⟩ := emitting.of_perform
  cases receivers : (Op.apply (.view (·.connectionsOf p "destroyed()")) (Scope.values.enter w)).1 with
  | nil =>
    rw [receivers] at going
    cases going
    exact ⟨(World.Alike.enter .values w).trans (.exit _ _ _), by simp⟩
  | cons c rest =>
    rw [receivers, List.mapM_cons] at going
    obtain ⟨_, _, mapping, rest, rfl, mapped, -⟩ := going.first_of_bind
    obtain ⟨_, _, attempting, _, rfl, first, -⟩ := mapped.first_of_bind
    obtain ⟨_, _, delivering, -, -⟩ := first.of_attempt
    obtain ⟨_, rfl⟩ := delivering.of_ask
    exact (quiet c p [] _ (.tail _ (List.mem_append_left _ (List.mem_append_left _ (.head _))))).elim

end ScriptBridge
