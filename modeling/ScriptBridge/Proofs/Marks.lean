import ScriptBridge.Proofs.Apart
import ScriptBridge.Proofs.Threads
import ScriptBridge.Proofs.Wrappers

/-!
What the bridge says of a suspended coroutine, and what has happened to that. The bridge marks a
coroutine when it resumes it, and takes one that is marked for one that waits at a yield. Scripts
resume coroutines as well, and mark none.
-/

namespace ScriptBridge

open Script (Cell Thread)

theorem Script.Thread.Turns.isFresh {t t' : Thread} (turns : t.Turns t') :
    t'.IsFresh → t.IsFresh :=
  fun ⟨body, fresh⟩ => ⟨body, turns.onward body fresh⟩

namespace Moment

/-- What a coroutine is about to be made. -/
def turn? (r : Ref) : Moment → Option Thread
  | .op (.write r' (.thread t)) _ => if r' = r then some t else none
  | _ => none

/-- A state is about to be opened of which this is the main coroutine, which runs at once. -/
def Opens (r : Ref) : Moment → Prop
  | .op (.openEngine _) w => r = ⟨w.engines.next, 1⟩
  | _ => False

/-- A coroutine is about to be marked, which it has not been before: the bridge resumes it for the
first time. -/
def Marks (r : Ref) (m : Moment) : Prop :=
  ∃ t t', m.world.thread? r = some t ∧ m.turn? r = some t' ∧
    t.resumed = false ∧ t'.resumed = true

/-- A coroutine is about to begin, or to be closed before that. -/
def Begins (r : Ref) (m : Moment) : Prop :=
  m.Opens r ∨ ∃ t t', m.world.thread? r = some t ∧ m.turn? r = some t' ∧
    t.IsFresh ∧ ¬ t'.IsFresh

end Moment

/-- How a coroutine that is there after a moment has come to be what it is. -/
inductive Moment.Makes (r : Ref) (t : Thread) (m : Moment) : Prop where
  | kept (other : m.turn? r = none) (there : m.world.thread? r = some t)
  | turned (turn : m.turn? r = some t) (becomes : m.world.MayBecome r t)
  | made (other : m.turn? r = none) (new : ¬ m.world.Given r) (unmarked : t.resumed = false)
    (begun : ¬ t.IsFresh ↔ m.Opens r)

namespace World

variable {w w' : World} {r : Ref} {t : Thread} {cell : Cell}

theorem Given.of_thread? (there : w.thread? r = some t) : w.Given r :=
  .of_cell? (thread?_eq_some.mp there)

theorem thread?_eq_none_of_new (new : ¬ w.Given r) : w.thread? r = none :=
  Option.eq_none_iff_forall_ne_some.mpr fun _ there => new (.of_thread? there)

theorem cell?_eq_some : w.cell? r = some cell ↔
    ∃ e, w.engine? r.owner = some e ∧ e.heap.get? r.index = some cell :=
  Option.bind_eq_some_iff

/-- What is there after an engine has changed was there before, or is in the heap that is new. -/
theorem cell?_of_modifyEngine {s : StateId} {f : Engine → Engine}
    (found : (w.modifyEngine s f).cell? r = some cell) : w.cell? r = some cell ∨
      ∃ e, w.engine? r.owner = some e ∧ (f e).heap.get? r.index = some cell := by
  obtain ⟨e', engine', there⟩ := cell?_eq_some.mp found
  rw [engine?_modifyEngine] at engine'
  split at engine'
  · obtain ⟨e, engine, rfl⟩ := Option.map_eq_some_iff.mp engine'
    exact .inr ⟨e, engine, there⟩
  · exact .inl (cell?_eq_some.mpr ⟨e', engine', there⟩)

theorem cell?_of_modifyBooks {s : StateId} {f : Engine → Engine}
    (found : (w.modifyEngine s f).cell? r = some cell) (heap : ∀ e, (f e).heap = e.heap) :
    w.cell? r = some cell := by
  rcases cell?_of_modifyEngine found with there | ⟨e, engine, there⟩
  · exact there
  · exact cell?_eq_some.mpr ⟨e, engine, heap e ▸ there⟩

theorem cell?_of_retain {s : StateId} {kept : List Nat}
    (found : (w.retain s kept).2.cell? r = some cell) : w.cell? r = some cell := by
  unfold retain at found
  split at found
  · exact found
  · rcases cell?_of_modifyEngine found with there | ⟨e, engine, there⟩
    · exact there
    · simp only [Engine.retain, Store.get?_eraseAll] at there
      split at there
      · cases there
      · exact cell?_eq_some.mpr ⟨e, engine, there⟩

theorem cell?_of_closeEngine {s : StateId} (found : (w.closeEngine s).2.cell? r = some cell) :
    w.cell? r = some cell := by
  obtain ⟨e, engine, there⟩ := cell?_eq_some.mp found
  exact cell?_eq_some.mpr ⟨e, engine?_of_closeEngine engine, there⟩

/-- What is there after a place has been given out was there before, or is what is new. -/
theorem cell?_of_allocate {s : StateId} {new : Cell}
    (found : (w.allocate s new).2.cell? r = some cell) :
    w.cell? r = some cell ∨ cell = new ∧ ¬ w.Given r := by
  rcases cell?_of_modifyEngine found with there | ⟨e, engine, there⟩
  · exact .inl there
  · rw [Store.get?_add] at there
    split at there
    · rename_i here
      refine .inr ⟨(Option.some.inj there).symm, fun given => ?_⟩
      exact Nat.ne_of_lt (given.engine e engine) here
    · exact .inl (cell?_eq_some.mpr ⟨e, engine, there⟩)

/-- A coroutine that is there after a state has been opened was there before, or is the one that
runs in the new state. -/
theorem thread?_of_openEngine {config : Config}
    (found : (w.openEngine config).2.thread? r = some t) :
    w.thread? r = some t ∨ r = ⟨w.engines.next, 1⟩ ∧ t = { progress := .active } := by
  obtain ⟨e', engine', there⟩ := cell?_eq_some.mp (thread?_eq_some.mp found)
  simp only [openEngine, engine?, Store.get?_add] at engine'
  split at engine'
  · rename_i own
    cases engine'
    simp only [Store.get?_add, Store.get?_empty] at there
    split at there
    · rename_i index
      cases there
      exact .inr ⟨congrArg₂ Ref.mk own index, rfl⟩
    · split at there <;> cases there
  · exact .inl (thread?_eq_some.mpr (cell?_eq_some.mpr ⟨e', engine', there⟩))

end World

/-- A coroutine that is there after an operation which may be performed has come to be so in one of
these ways. -/
theorem Op.Allowed.makes {o : Op β} {w : World} {r : Ref} {t : Thread} (allowed : o.Allowed w)
    (after : (o.apply w).2.thread? r = some t) : Moment.Makes r t (.op o w) := by
  have found := World.thread?_eq_some.mp after
  have kept (other : (Moment.op o w).turn? r = none) (there : w.cell? r = some (.thread t)) :
      Moment.Makes r t (.op o w) := .kept other (World.thread?_eq_some.mpr there)
  by_cases touches : o.TouchesEngines
  · cases o with
    | allocate s cell =>
      rcases World.cell?_of_allocate found with old | ⟨rfl, new⟩
      · exact kept rfl old
      · exact .made rfl new allowed.2.unmarked (iff_of_false (not_not.mpr allowed.2.fresh) id)
    | write r' cell =>
      have elsewhere (other : r' ≠ r) : (Moment.op (.write r' cell) w).turn? r = none := by
        cases cell with
        | thread t' => exact if_neg other
        | _ => rfl
      simp only [Op.apply, World.cell?_write] at found
      split at found
      · rename_i same
        subst same
        obtain ⟨old, there, becomes⟩ := Option.map_eq_some_iff.mp found
        split at becomes
        · subst becomes
          exact .turned (if_pos rfl) allowed.2
        · rename_i unlike
          subst becomes
          refine kept ?_ there
          cases cell with
          | thread t' => exact (unlike rfl).elim
          | _ => rfl
      · rename_i other
        exact kept (elsewhere (Ne.symm other)) found
    | setRunning | givePlace | anchor | cacheWrapper | expire =>
      exact kept rfl (World.cell?_of_modifyBooks found fun _ => rfl)
    | equip s part =>
      exact kept rfl (World.cell?_of_modifyBooks found fun _ => by cases part <;> rfl)
    | takePlace s =>
      refine kept rfl ?_
      simp only [Op.apply, World.takePlace] at found
      split at found
      · split at found
        · exact World.cell?_of_modifyBooks found fun _ => rfl
        · exact found
      · exact found
    | openEngine config =>
      rcases World.thread?_of_openEngine after with old | ⟨rfl, rfl⟩
      · exact .kept rfl old
      · exact .made rfl (fun given => Nat.lt_irrefl _ given.known) rfl
          (iff_of_true (by simp [Thread.IsFresh]) rfl)
    | closeEngine s => exact kept rfl (World.cell?_of_closeEngine found)
    | sweep s => exact kept rfl (World.cell?_of_retain found)
    | _ => exact touches.elim
  · refine kept ?_ ?_
    · cases o with
      | write => exact (touches trivial).elim
      | _ => rfl
    · simpa only [World.cell?, World.engine?, Op.engines_apply w touches] using found

namespace Moment

variable {r : Ref} {t : Thread} {m : Moment}

/-- The main coroutine of a state that is about to be opened is new. -/
theorem Opens.new (opens : m.Opens r) : ¬ m.world.Given r := by
  unfold Opens at opens
  split at opens
  · subst opens
    exact fun given => Nat.lt_irrefl _ given.known
  · exact opens.elim

namespace Makes

/-- A coroutine is marked if it was so before, or has been marked just now. -/
theorem resumed_iff (makes : m.Makes r t) : t.resumed = true ↔
    (∃ before, m.world.thread? r = some before ∧ before.resumed = true) ∨ m.Marks r := by
  cases makes with
  | kept other there => simp [Marks, other, there]
  | turned turn becomes =>
    cases becomes with
    | turned there turns => simp [Marks, turn, there, turns.mark]
    | @marked before there => cases old : before.resumed <;> simp [Marks, turn, there, old]
  | made other new unmarked => simp [Marks, other, unmarked, World.thread?_eq_none_of_new new]

/-- A coroutine has begun if it had done so before, or has begun just now. -/
theorem begun_iff (makes : m.Makes r t) : ¬ t.IsFresh ↔
    (∃ before, m.world.thread? r = some before ∧ ¬ before.IsFresh) ∨ m.Begins r := by
  have old {before : Thread} (there : m.world.thread? r = some before) : ¬ m.Opens r :=
    fun opens => opens.new (.of_thread? there)
  cases makes with
  | kept other there => simp [Begins, other, there, old there]
  | turned turn becomes =>
    cases becomes with
    | @turned before _ there turns =>
      by_cases fresh : before.IsFresh
      · simp [Begins, turn, there, old there, fresh]
      · simp [Begins, there, fresh, mt turns.isFresh fresh]
    | @marked before there =>
      have same : ({ before with resumed := true } : Thread).IsFresh ↔ before.IsFresh := .rfl
      by_cases fresh : before.IsFresh <;> simp [Begins, turn, there, old there, fresh, same]
  | made other new unmarked begun =>
    simp [Begins, other, begun, World.thread?_eq_none_of_new new]

/-- A coroutine that has just been made had not been given out. -/
theorem new_of_none (makes : m.Makes r t) (none : m.world.thread? r = none) :
    ¬ m.world.Given r := by
  cases makes with
  | kept other there => cases none.symm.trans there
  | turned turn becomes => cases becomes <;> cases none.symm.trans ‹_›
  | made other new => exact new

/-- Moments that tell something about each coroutine that is there still do so when one more has
passed. -/
theorem told (makes : m.Makes r t) {past : List Moment} {event : Moment → Prop}
    {flag : Thread → Prop} (known : ∀ m' ∈ past, event m' → m.world.Given r)
    (before : ∀ t, m.world.thread? r = some t → (flag t ↔ ∃ m' ∈ past, event m'))
    (now : flag t ↔ (∃ before, m.world.thread? r = some before ∧ flag before) ∨ event m) :
    flag t ↔ ∃ m' ∈ past ++ [m], event m' := by
  have split : (∃ m' ∈ past ++ [m], event m') ↔ (∃ m' ∈ past, event m') ∨ event m := by
    simp [or_and_right, exists_or]
  rw [now, split]
  cases there : m.world.thread? r with
  | some old => simp [before old there]
  | none =>
    have never : ¬ ∃ m' ∈ past, event m' := fun ⟨m', member, happened⟩ =>
      makes.new_of_none there (known m' member happened)
    simp [never]

end Makes

/-- A coroutine that is marked or begun is there then. -/
theorem given_of_event (event : m.Marks r ∨ m.Begins r) (begun : ¬ m.Opens r) :
    m.world.Given r := by
  obtain ⟨t, -, there, -⟩ | opens | ⟨t, -, there, -⟩ := event
  · exact .of_thread? there
  · exact (begun opens).elim
  · exact .of_thread? there

end Moment

/-- A state that has been opened has given its main coroutine out. -/
theorem Op.given_of_opens {o : Op β} {w : World} {r : Ref} (opens : (Moment.op o w).Opens r) :
    (o.apply w).2.Given r := by
  cases o with
  | openEngine config =>
    subst opens
    refine ⟨by simp [Op.apply, World.openEngine], fun e engine => ?_⟩
    simp only [Op.apply, World.openEngine, World.engine?, Store.get?_add, if_true] at engine
    cases engine
    simp
  | _ => exact opens.elim

namespace World

variable {w w' : World} {past : List Moment}

/-- What has happened tells which coroutines are marked and which have begun. -/
structure Recalls (past : List Moment) (w : World) : Prop where
  given : ∀ r, ∀ m ∈ past, m.Marks r ∨ m.Begins r → w.Given r
  marked : ∀ r t, w.thread? r = some t → (t.resumed = true ↔ ∃ m ∈ past, m.Marks r)
  begun : ∀ r t, w.thread? r = some t → (¬ t.IsFresh ↔ ∃ m ∈ past, m.Begins r)

theorem recalls_empty : Recalls [] {} where
  given := by simp
  marked := by simp [thread?, cell?, engine?]
  begun := by simp [thread?, cell?, engine?]

namespace Recalls

/-- A change that makes nothing of any coroutine. -/
theorem change (recalls : w.Recalls past) (change : w.Change w')
    (stays : ∀ r t, w'.thread? r = some t → w.thread? r = some t) : w'.Recalls past where
  given r m member event := (recalls.given r m member event).change change
  marked r t there := recalls.marked r t (stays r t there)
  begun r t there := recalls.begun r t (stays r t there)

/-- A request has not changed anything yet. -/
theorem request (recalls : w.Recalls past) (q : Request β) :
    w.Recalls (past ++ [.request q w]) := by
  have marks (r : Ref) : ¬ (Moment.request q w).Marks r := by rintro ⟨_, _, -, ⟨⟩, -⟩
  have begins (r : Ref) : ¬ (Moment.request q w).Begins r := by
    rintro (opens | ⟨_, _, -, ⟨⟩, -⟩)
    exact opens
  refine ⟨fun r m member event => ?_, fun r t there => ?_, fun r t there => ?_⟩
  · rcases List.mem_append.mp member with old | last
    · exact recalls.given r m old event
    · cases List.mem_singleton.mp last
      exact (event.elim (marks r) (begins r)).elim
  · simpa [or_and_right, exists_or, marks] using recalls.marked r t there
  · simpa [or_and_right, exists_or, begins] using recalls.begun r t there

theorem op (recalls : w.Recalls past) {o : Op β} (allowed : o.Allowed w) :
    (o.apply w).2.Recalls (past ++ [.op o w]) := by
  have change : w.Change (o.apply w).2 := .op allowed.permitted
  refine ⟨fun r m member event => ?_, fun r t there => ?_, fun r t there => ?_⟩
  · rcases List.mem_append.mp member with old | last
    · exact (recalls.given r m old event).change change
    · cases List.mem_singleton.mp last
      by_cases opens : (Moment.op o w).Opens r
      · exact Op.given_of_opens opens
      · exact (Moment.given_of_event event opens).change change
  · have makes := allowed.makes there
    exact makes.told (fun m member marks => recalls.given r m member (.inl marks))
      (recalls.marked r) makes.resumed_iff
  · have makes := allowed.makes there
    exact makes.told (fun m member begins => recalls.given r m member (.inr begins))
      (recalls.begun r) makes.begun_iff

end Recalls

end World

/-- All along a trail, what has happened tells which coroutines are marked and which have begun. -/
theorem Trail.recalls {w w' : World} {past moments : List Moment} (trail : Trail w moments w')
    (recalls : w.Recalls past) : w'.Recalls (past ++ moments) := by
  induction trail generalizing past with
  | here => simpa using recalls
  | op allowed _ ih => simpa using ih (recalls.op allowed)
  | request _ _ ih => simpa using ih (recalls.request _)
  | enter _ ih =>
    exact ih (recalls.change (.enter _ _) fun r _ there =>
      ((World.Alike.enter _ _).thread? r).symm.trans there)
  | exit _ ih =>
    exact ih (recalls.change (.exit _ _ _) fun r _ there =>
      ((World.Alike.exit _ _ _).thread? r).symm.trans there)
  | retain _ ih =>
    exact ih (recalls.change (.retain _ _ _) fun r _ there =>
      World.thread?_eq_some.mpr (World.cell?_of_retain (World.thread?_eq_some.mp there)))

namespace World

variable {w : World} {r : Ref} {t : Thread}

/-- A coroutine that is not the one which its engine runs. -/
def Rests (w : World) (r : Ref) : Prop := (w.engine? r.owner).map (·.running) ≠ some r

/-- What the bridge says of a coroutine is so: it is fresh if its body has not begun, and yielded if
it waits at a yield. -/
def ToldRight (w : World) (r : Ref) (t : Thread) : Prop :=
  (w.threadState r = .fresh ↔ t.IsFresh) ∧
    (w.threadState r = .yielded ↔ ∃ konts, t.progress = .suspended konts)

theorem threadState_of_rests (there : w.thread? r = some t) (rests : w.Rests r) : w.threadState r =
    if looksResumable t then (if t.resumed then .yielded else .fresh) else .dead := by
  rw [threadState, if_neg rests, there]

/-- What the bridge says of a suspended coroutine is so just if it is marked and has begun, or
neither. -/
theorem toldRight_iff (there : w.thread? r = some t) (rests : w.Rests r) : w.ToldRight r t ↔
    (looksResumable t → t.progress ≠ .active ∧ (t.resumed = true ↔ ¬ t.IsFresh)) := by
  rw [ToldRight, threadState_of_rests there rests]
  cases looks : looksResumable t with
  | false =>
    have begun : ¬ t.IsFresh := by
      rintro ⟨body, fresh⟩
      simp [looksResumable, fresh] at looks
    have onward : ¬ ∃ konts, t.progress = .suspended konts := by
      rintro ⟨konts, suspended⟩
      simp [looksResumable, suspended] at looks
    simp [begun, onward]
  | true =>
    cases progress : t.progress with
    | ended => simp [looksResumable, progress] at looks
    | _ => cases t.resumed <;> simp [Thread.IsFresh, progress]

end World

/-- What the bridge says of a coroutine that does not run comes from what it has done itself: one
that looks suspended counts as fresh until the bridge first resumes it, and as yielded from then on.
That is right just if the coroutine does not wait for another one, and if it has begun where the
bridge has resumed it, and only there. -/
theorem Reaches.threadState_history {moments : List Moment} {w : World}
    (reaches : Reaches moments w) {r : Ref} {t : Thread} (there : w.thread? r = some t)
    (rests : w.Rests r) :
    (w.threadState r = .fresh ↔
      World.looksResumable t = true ∧ ¬ ∃ m ∈ moments, m.Marks r) ∧
    (w.threadState r = .yielded ↔ World.looksResumable t = true ∧ ∃ m ∈ moments, m.Marks r) ∧
    (¬ t.IsFresh ↔ ∃ m ∈ moments, m.Begins r) ∧
    (w.ToldRight r t ↔ (World.looksResumable t = true → t.progress ≠ .active ∧
      ((∃ m ∈ moments, m.Marks r) ↔ ∃ m ∈ moments, m.Begins r))) := by
  have recalls : w.Recalls moments := reaches.trail.recalls World.recalls_empty
  have marked := recalls.marked r t there
  have begun := recalls.begun r t there
  rw [← marked, ← begun, World.threadState_of_rests there rests]
  refine ⟨?_, ?_, .rfl, World.toldRight_iff there rests⟩
  · cases World.looksResumable t <;> cases t.resumed <;> simp
  · cases World.looksResumable t <;> cases t.resumed <;> simp

/-- A coroutine that a script has resumed. -/
def scriptResumed : List Step := [
  ⟨.openState { engine := { libraries := [.coroutine] }, hostLib := { enabled := false } }, []⟩,
  ⟨.execute 0 "local c = coroutine.create(function() coroutine.yield() end)
    coroutine.resume(c) return c", ["c"]⟩]

theorem threadState_history_unmarked : ∃ moments t, Reaches moments (Step.play {} scriptResumed) ∧
    (Step.play {} scriptResumed).thread? ⟨0, 40⟩ = some t ∧
    (Step.play {} scriptResumed).threadState ⟨0, 40⟩ = .fresh ∧
    (∃ konts, t.progress = .suspended konts) ∧ (∃ m ∈ moments, m.Begins ⟨0, 40⟩) ∧
    ¬ ∃ m ∈ moments, m.Marks ⟨0, 40⟩ := by
  obtain ⟨fresh, waits, rests⟩ : (Step.play {} scriptResumed).threadState ⟨0, 40⟩ = .fresh ∧
      ((Step.play {} scriptResumed).progressOf ⟨0, 40⟩).any (fun
        | .suspended _ => true
        | _ => false) = true ∧
      ((Step.play {} scriptResumed).engine? 0).map (·.running) ≠ some ⟨0, 40⟩ := by decide +kernel
  obtain ⟨moments, session⟩ := Session.start.play scriptResumed
  have reaches := Reaches.of_session session
  generalize Step.play {} scriptResumed = w at *
  obtain ⟨progress, found, waits⟩ := (Option.any_eq_true ..).mp waits
  obtain ⟨t, there, rfl⟩ := Option.map_eq_some_iff.mp found
  obtain ⟨asFresh, -, begun, -⟩ := reaches.threadState_history there rests
  obtain ⟨konts, suspended⟩ : ∃ konts, t.progress = .suspended konts := by
    cases progress : t.progress <;> simp_all
  refine ⟨moments, t, reaches, there, fresh, ⟨konts, suspended⟩, begun.mp ?_, (asFresh.mp fresh).2⟩
  rintro ⟨body, same⟩
  cases suspended.symm.trans same

end ScriptBridge
