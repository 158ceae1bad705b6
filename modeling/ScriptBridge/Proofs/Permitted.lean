import ScriptBridge.Native.Wrap
import ScriptBridge.Proofs.Frames

/-!
Which elementary operations programs may perform in a world, and that those keep the engines of the
world apart from one another.
-/

namespace ScriptBridge

open Script (Cell)

/-- Whether a native object wraps a host object. -/
def Native.IsWrapper : Native → Prop
  | .wrapper .. => True
  | _ => False

namespace Equipment

def refs : Equipment → List Ref
  | .strings r | .files r => [r]
  | .helpers rs => rs

end Equipment

namespace World

/-- A userdata that holds a wrapper of an object. -/
def IsWrapperAt (w : World) (r : Ref) (o : ObjectId) : Prop :=
  ∃ n owning ownership, w.cell? r = some (.native n) ∧
    w.native? n = some (.wrapper o owning ownership)

/-- A userdata that may be remembered as the wrapper of an object in a state: there is none yet. -/
structure MayCache (w : World) (s : StateId) (o : ObjectId) (r : Ref) : Prop where
  own : r.owner = s
  wraps : w.isOpen s → w.IsWrapperAt r o
  first : w.wrapperOf? s o = none

/-- What engines remember as wrappers is in their heaps, and native objects that are in there have
been made. -/
def Cached (w : World) : Prop :=
  ∀ s e o r, w.engine? s = some e → (o, r) ∈ e.wrappers →
    r.index < e.heap.next ∧ ∀ n, e.heap.get? r.index = some (.native n) → n < w.natives.next

/-- The worlds that runs lead to. -/
structure Sound (w : World) : Prop where
  isolated : w.Isolated
  cached : w.Cached

theorem sound_empty : ({} : World).Sound where
  isolated := isolated_empty
  cached := by
    intro s e o r found
    simp [engine?] at found

end World

/-- What a program may do to a world: it puts into an engine only what belongs to that engine,
starts the members of objects that are alive only, connects no destroyed object, and makes wrappers
one way only. -/
def Op.Permitted : Op β → World → Prop
  | .allocate s cell, _ => Owned s cell.refs
  | .write r cell, _ => Owned r.owner cell.refs
  | .setRunning s thread, _ => thread.owner = s
  | .equip s part, _ => Owned s part.refs
  | .cacheWrapper s o userdata, w => w.MayCache s o userdata
  | .start o _, w | .connect o _ _, w => w.isDestroyed o = false
  | .markDestroyed _, _ => False
  | .newNative native, _ => ¬ native.IsWrapper
  | _, _ => True

/-- The body of a coroutine has not begun. -/
def Script.Thread.IsFresh (t : Script.Thread) : Prop := ∃ body, t.progress = .fresh body

/-- A coroutine that nothing has resumed. -/
structure Script.Thread.IsNew (t : Script.Thread) : Prop where
  unmarked : t.resumed = false
  fresh : t.IsFresh

/-- What engines do with a coroutine: they let its mark be, and nothing begins anew. -/
structure Script.Thread.Turns (t t' : Script.Thread) : Prop where
  mark : t'.resumed = t.resumed
  onward : ∀ body, t'.progress = .fresh body → t.progress = .fresh body

namespace Script.Thread.Turns

theorem waits (t : Script.Thread) (waiting : List Script.Waiting) :
    t.Turns { t with waiting := waiting } :=
  ⟨rfl, fun _ same => same⟩

theorem onto {progress : Script.Progress} (begun : ∀ body, progress ≠ .fresh body)
    (t : Script.Thread) : t.Turns { t with progress := progress } :=
  ⟨rfl, fun body same => (begun body same).elim⟩

end Script.Thread.Turns

/-- What programs make of a coroutine. -/
inductive World.MayBecome (w : World) (r : Ref) : Script.Thread → Prop where
  | turned {t t' : Script.Thread} (there : w.thread? r = some t) (turns : t.Turns t') :
    MayBecome w r t'
  /-- The bridge marks one that it has found suspended. -/
  | marked {t : Script.Thread} (there : w.thread? r = some t)
    (suspended : w.threadState r = .fresh ∨ w.threadState r = .yielded) :
    MayBecome w r { t with resumed := true }

/-- What programs do to a world. It is permitted, and their coroutines begin as new ones and change
in certain ways only. -/
def Op.Allowed : Op β → World → Prop
  | .allocate s (.thread t), _ => Owned s (Cell.thread t).refs ∧ t.IsNew
  | .write r (.thread t), w => Owned r.owner (Cell.thread t).refs ∧ w.MayBecome r t
  | o, w => o.Permitted w

theorem Op.Allowed.permitted {o : Op β} {w : World} (allowed : o.Allowed w) : o.Permitted w := by
  cases o with
  | allocate s cell =>
    cases cell with
    | thread t => exact allowed.1
    | _ => exact allowed
  | write r cell =>
    cases cell with
    | thread t => exact allowed.1
    | _ => exact allowed
  | _ => exact allowed

/-- A coroutine of a function of the same state may be made. -/
theorem Op.Allowed.newThread {s : StateId} {body : Script.Datum} (own : Owned s body.refs)
    (w : World) : (Op.allocate s (.thread { progress := .fresh body })).Allowed w :=
  ⟨own, rfl, body, rfl⟩

namespace World

theorem isolated_retain {w : World} (isolated : w.Isolated) (s : StateId) (kept : List Nat) :
    (w.retain s kept).2.Isolated := by
  unfold retain
  split
  · exact isolated
  · exact isolated.modifyEngine fun e _ own => own.retain kept

theorem isolated_openEngine {w : World} (isolated : w.Isolated) (config : Config) :
    (w.openEngine config).2.Isolated := by
  intro s e found
  simp only [openEngine, engine?, Store.get?_add] at found
  split at found
  · rename_i new
    obtain rfl := Option.some.inj found
    refine ⟨?_, ?_, ?_⟩
    · simp [Engine.roots, Owned, new]
    · intro i cell there
      simp only [Store.get?_add, Store.get?_empty] at there
      split at there
      · obtain rfl := Option.some.inj there
        simp [Cell.refs, Script.Progress.refs]
      · split at there
        · obtain rfl := Option.some.inj there
          simp [Cell.refs]
        · simp at there
    · simp
  · exact isolated s e found

/-- To close a state leaves the engines of the others alone. -/
theorem engine?_of_closeEngine {w : World} {s t : StateId} {e : Engine}
    (found : (w.closeEngine s).2.engine? t = some e) : w.engine? t = some e := by
  unfold closeEngine at found
  split at found
  · exact found
  · simp only [engine?, Store.get?_erase] at found
    split at found
    · cases found
    · exact found

theorem isolated_closeEngine {w : World} (isolated : w.Isolated) (s : StateId) :
    (w.closeEngine s).2.Isolated :=
  fun t e found => isolated t e (engine?_of_closeEngine found)

end World

/-- What a program may do keeps engines apart. -/
theorem Op.Permitted.isolated {o : Op β} {w : World} (permitted : o.Permitted w)
    (isolated : w.Isolated) : (o.apply w).2.Isolated := by
  by_cases touches : o.TouchesEngines
  · cases o with
    | allocate s cell => exact isolated.modifyEngine fun e _ own => own.add permitted
    | write r cell => exact isolated.modifyEngine fun e _ own => own.modify permitted r.index _
    | setRunning s thread =>
      refine isolated.modifyEngine fun e _ own => own.with_roots rfl rfl ?_
      intro r member
      simp only [Engine.roots, List.mem_append, List.mem_cons] at member ⊢
      have : thread.owner = s := permitted
      grind
    | equip s part =>
      refine isolated.modifyEngine fun e _ own => ?_
      cases part with
      | strings r | files r | helpers rs =>
        refine own.with_roots rfl rfl ?_
        intro root member
        have owned : Owned s _ := permitted
        simp only [Engine.roots, Equipment.refs, List.mem_append, List.mem_cons, Owned,
          Option.toList_some] at member owned ⊢
        grind
    | takePlace s =>
      simp only [Op.apply, World.takePlace]
      split
      · split
        · refine isolated.modifyEngine fun e _ own => ?_
          exact own.with_roots rfl rfl fun r member => .inl member
        · exact isolated
      · exact isolated
    | givePlace s =>
      exact isolated.modifyEngine fun e _ own => own.with_roots rfl rfl fun r member => .inl member
    | anchor target => exact isolated.modifyEngine fun e _ own => own.anchor rfl w.level
    | cacheWrapper s o userdata =>
      refine isolated.modifyEngine fun e _ own => ⟨own.roots, own.cells, ?_⟩
      intro entry member
      rcases List.mem_cons.mp member with rfl | old
      · exact World.MayCache.own permitted
      · exact own.wrappers entry (List.mem_filter.mp old).1
    | openEngine config => exact World.isolated_openEngine isolated config
    | closeEngine s => exact World.isolated_closeEngine isolated s
    | expire s =>
      refine isolated.modifyEngine fun e _ own => own.with_roots rfl rfl ?_
      intro r member
      simp only [Engine.roots, List.append_nil] at member ⊢
      exact .inl (List.mem_append_left _ member)
    | sweep s => exact World.isolated_retain isolated s _
    | _ => exact touches.elim
  · exact isolated.of_engines_eq (Op.engines_apply w touches)

/-- An engine that remembers no other wrappers than another one, and has the same userdata where
they are. -/
structure Engine.Continues (e e' : Engine) : Prop where
  wrappers : e'.wrappers ⊆ e.wrappers
  next : e.heap.next ≤ e'.heap.next
  natives : ∀ i n, i < e.heap.next → e'.heap.get? i = some (.native n) →
    e.heap.get? i = some (.native n)

namespace Engine.Continues

theorem of_same {e e' : Engine} (heap : e'.heap = e.heap) (wrappers : e'.wrappers = e.wrappers) :
    e.Continues e' where
  wrappers := by simp [wrappers]
  next := by simp [heap]
  natives := by simp [heap]

theorem add (e : Engine) (cell : Cell) : e.Continues { e with heap := e.heap.add cell } where
  wrappers := by simp
  next := by simp
  natives := by
    intro i n small found
    rw [Store.get?_add, if_neg (Nat.ne_of_lt small)] at found
    exact found

theorem modify (e : Engine) (i : Nat) (cell : Cell) : e.Continues
    { e with heap := e.heap.modify i fun old => if old.isLike cell then cell else old } where
  wrappers := by simp
  next := by simp
  natives := by
    intro j n _ found
    rw [Store.get?_modify] at found
    split at found
    · obtain ⟨old, there, same⟩ := Option.map_eq_some_iff.mp found
      split at same
      · rename_i like
        subst same
        cases old <;> simp [Cell.isLike] at like
      · rw [there, same]
    · exact found

theorem retain (e : Engine) (kept : List Nat) : e.Continues (e.retain kept) where
  wrappers := fun _ member => (List.mem_filter.mp member).1
  next := by
    have each (ids : List Nat) (heap : Store Cell) :
        (ids.foldl (fun heap i => heap.erase i) heap).next = heap.next := by
      induction ids generalizing heap with
      | nil => rfl
      | cons i rest ih => rw [List.foldl_cons, ih, Store.next_erase]
    exact Nat.le_of_eq (each _ _).symm
  natives := by
    intro i n _ found
    simp only [Engine.retain, Store.get?_eraseAll] at found
    split at found
    · simp at found
    · exact found

end Engine.Continues

namespace World.Cached

variable {w : World} (cached : w.Cached)
include cached

theorem continued {w' : World} (natives : w.natives.next ≤ w'.natives.next)
    (engines : ∀ s e', w'.engine? s = some e' →
      e'.wrappers = [] ∨ ∃ e, w.engine? s = some e ∧ e.Continues e') : w'.Cached := by
  intro s e' o r found member
  rcases engines s e' found with none | ⟨e, before, continues⟩
  · simp [none] at member
  · obtain ⟨small, made⟩ := cached s e o r before (continues.wrappers member)
    refine ⟨Nat.lt_of_lt_of_le small continues.next, fun n there => ?_⟩
    exact Nat.lt_of_lt_of_le (made n (continues.natives _ n small there)) natives

theorem of_same {w' : World} (engines : w'.engines = w.engines)
    (natives : w.natives.next ≤ w'.natives.next) : w'.Cached :=
  cached.continued natives fun s e found =>
    .inr ⟨e, by simpa [engine?, engines] using found, .of_same rfl rfl⟩

theorem modifyEngine {s : StateId} {f : Engine → Engine}
    (continues : ∀ e : Engine, e.Continues (f e)) :
    (w.modifyEngine s f).Cached := by
  refine cached.continued (Nat.le_refl _) fun t e found => .inr ?_
  rw [engine?_modifyEngine] at found
  split at found
  · obtain ⟨e, there, rfl⟩ := Option.map_eq_some_iff.mp found
    exact ⟨e, there, continues e⟩
  · exact ⟨e, found, .of_same rfl rfl⟩

theorem retain (s : StateId) (kept : List Nat) : (w.retain s kept).2.Cached := by
  unfold World.retain
  split
  · exact cached
  · exact cached.modifyEngine fun e => .retain e kept

/-- A wrapper that may be remembered is in the heap. -/
theorem cacheWrapper {s : StateId} {o : ObjectId} {r : Ref} (may : w.MayCache s o r) :
    (w.cacheWrapper s o r).Cached := by
  intro t e o' r' found member
  rw [World.cacheWrapper, engine?_modifyEngine] at found
  split at found
  · rename_i same
    subst same
    obtain ⟨e, there, rfl⟩ := Option.map_eq_some_iff.mp found
    rcases List.mem_cons.mp member with new | old
    · obtain ⟨rfl, rfl⟩ := Prod.mk.inj new
      obtain ⟨n, owning, ownership, cell, native⟩ := may.wraps (by simp [isOpen, there])
      simp only [cell?, may.own, there, Option.bind_eq_bind, Option.bind_some] at cell
      refine ⟨Store.lt_next_of_get? cell, fun m same => ?_⟩
      obtain rfl : n = m := by simpa [cell] using same
      exact Store.lt_next_of_get? native
    · exact cached s e o' r' there (List.mem_filter.mp old).1
  · exact cached t e o' r' found member

end World.Cached

/-- What a program may do keeps what engines remember. -/
theorem Op.Permitted.cached {o : Op β} {w : World} (permitted : o.Permitted w)
    (cached : w.Cached) : (o.apply w).2.Cached := by
  by_cases touches : o.TouchesEngines
  · cases o with
    | allocate s cell => exact cached.modifyEngine fun e => .add e cell
    | write r cell => exact cached.modifyEngine fun e => .modify e r.index cell
    | setRunning | givePlace | anchor | expire =>
      exact cached.modifyEngine fun _ => .of_same rfl rfl
    | equip s part =>
      refine cached.modifyEngine fun e => ?_
      cases part <;> exact .of_same rfl rfl
    | takePlace s =>
      simp only [Op.apply, World.takePlace]
      split
      · split
        · exact cached.modifyEngine fun _ => .of_same rfl rfl
        · exact cached
      · exact cached
    | cacheWrapper s o userdata => exact cached.cacheWrapper permitted
    | openEngine config =>
      refine cached.continued (Nat.le_refl _) fun s e found => ?_
      simp only [Op.apply, World.openEngine, World.engine?, Store.get?_add] at found
      split at found
      · obtain rfl := Option.some.inj found
        exact .inl rfl
      · exact .inr ⟨e, found, .of_same rfl rfl⟩
    | closeEngine s =>
      refine cached.continued (Op.next_natives_apply (.closeEngine s) w) fun t e found => .inr ?_
      exact ⟨e, World.engine?_of_closeEngine found, .of_same rfl rfl⟩
    | sweep s => exact cached.retain s _
    | _ => exact touches.elim
  · exact cached.of_same (Op.engines_apply w touches) (Op.next_natives_apply o w)

/-- What a program may do leads to a world that runs lead to. -/
theorem Op.Permitted.sound {o : Op β} {w : World} (permitted : o.Permitted w) (sound : w.Sound) :
    (o.apply w).2.Sound :=
  ⟨permitted.isolated sound.isolated, permitted.cached sound.cached⟩

namespace World.Sound

variable {w : World} (sound : w.Sound)
include sound

theorem retain (s : StateId) (kept : List Nat) : (w.retain s kept).2.Sound :=
  ⟨isolated_retain sound.isolated s kept, sound.cached.retain s kept⟩

theorem closeScope (result : List Handle) : (w.closeScope result).Sound := by
  have each (states : List StateId) (held : List Handle) (level : Nat) (w : World)
      (sound : w.Sound) :
      (states.foldl (fun (w : World) s =>
        w.modifyEngine s fun e => e.settle s w.level result held) w).Sound := by
    induction states generalizing w with
    | nil => exact sound
    | cons s rest ih =>
      exact ih _ ⟨sound.isolated.modifyEngine fun e _ own => own.settle s w.level result held,
        sound.cached.modifyEngine fun e => .of_same rfl rfl⟩
  have closed := each w.openStates w.heldHandles w.level w sound
  exact ⟨closed.isolated.of_engines_eq rfl, closed.cached.of_same rfl (Nat.le_refl _)⟩

/-- A change of what engines count only. -/
theorem count (s : StateId) (f : Nat → Nat) :
    (w.modifyEngine s fun e => { e with depth := f e.depth }).Sound :=
  ⟨sound.isolated.modifyEngine fun _ _ own => own.with_roots rfl rfl fun _ member => .inl member,
    sound.cached.modifyEngine fun _ => .of_same rfl rfl⟩

theorem enter (s : Scope) : (s.enter w).Sound := by
  have opened : w.openScope.Sound :=
    ⟨sound.isolated.of_engines_eq rfl, sound.cached.of_same rfl (Nat.le_refl _)⟩
  cases s with
  | operation st => exact opened.count st (· + 1)
  | values => exact opened

theorem exit (s : Scope) (result : List Handle) : (s.exit result w).Sound := by
  cases s with
  | operation st => exact (sound.closeScope result).count st (· - 1)
  | values => exact sound.closeScope result

end World.Sound

end ScriptBridge
