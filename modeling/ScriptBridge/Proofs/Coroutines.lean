import ScriptBridge.Proofs.Apart
import ScriptBridge.Proofs.Exchange
import ScriptBridge.Proofs.Nesting
import ScriptBridge.Proofs.Tasks

/-!
Coroutines that the bridge resumes: one that runs or has ended is refused and nothing happens; one
that is suspended gets the arguments, goes on, and yields, returns or fails.
-/

namespace ScriptBridge

open Script (Datum Kont Machine Outcome Progress Thread)

/-- Worlds in which scripts find the same: the same objects in the same heaps, and the same
coroutines that run. -/
structure World.SameScripts (w w' : World) : Prop where
  alike : w.Alike w'
  running : ∀ s, (w'.engine? s).map (·.running) = (w.engine? s).map (·.running)

namespace World.SameScripts

variable {w w₁ w' : World}

theorem refl (w : World) : w.SameScripts w := ⟨.refl w, fun _ => rfl⟩

theorem trans (first : w.SameScripts w₁) (second : w₁.SameScripts w') : w.SameScripts w' :=
  ⟨first.alike.trans second.alike, fun s => (second.running s).trans (first.running s)⟩

theorem modifyEngine (w : World) (s : StateId) {f : Engine → Engine}
    (content : ∀ e : Engine, (f e).content = e.content) (running : ∀ e, (f e).running = e.running) :
    w.SameScripts (w.modifyEngine s f) := by
  refine ⟨.modifyEngine w s content, fun t => ?_⟩
  rw [engine?_modifyEngine]
  split
  · rw [Option.map_map]
    exact congrArg (Option.map · _) (funext running)
  · rfl

theorem enter (s : StateId) (w : World) : w.SameScripts ((Scope.operation s).enter w) :=
  have opened : w.SameScripts w.openScope := ⟨⟨rfl, rfl, fun _ => rfl⟩, fun _ => rfl⟩
  opened.trans (modifyEngine _ s (fun _ => rfl) fun _ => rfl)

theorem exit (s : StateId) (result : List Handle) (w : World) :
    w.SameScripts ((Scope.operation s).exit result w) :=
  trans ⟨.closeScope w result, (Mirrors.closeScope w result).running⟩
    (modifyEngine _ s (fun _ => rfl) fun _ => rfl)

theorem anchor (w : World) (r : Ref) : w.SameScripts (w.anchor r).2 :=
  ⟨.anchor w r, (Mirrors.anchor w r).running⟩

theorem thread? (same : w.SameScripts w') (r : Ref) : w'.thread? r = w.thread? r :=
  same.alike.thread? r

theorem progressOf (same : w.SameScripts w') (r : Ref) : w'.progressOf r = w.progressOf r := by
  rw [World.progressOf, same.thread?, World.progressOf]

theorem threadState (same : w.SameScripts w') (r : Ref) : w'.threadState r = w.threadState r := by
  simp only [World.threadState, same.running, same.thread?]

end World.SameScripts

namespace Value

variable {w w' : World}

/-- Data that become values leave scripts alone. -/
theorem sameScripts_ofData {data : List Datum} {result : Except Fault (List Value)}
    (ends : Ends (ofData data) w result w') : w.SameScripts w' := by
  have each {d : Datum} {w w' : World} {result : Except Fault Value}
      (ends : Ends (ofDatum d) w result w') : w.SameScripts w' := by
    have anchoring {kind : HandleKind} {r : Ref} (ends : Ends (anchored kind r) w result w') :
        w.SameScripts w' := by
      unfold anchored at ends
      rw [Ends.perform_bind_iff] at ends
      obtain ⟨-, rfl⟩ := Ends.pure_iff.mp ends
      exact .anchor w r
    cases d with
    | nil | bool | int | float | text =>
      obtain ⟨-, rfl⟩ := Ends.pure_iff.mp ends
      exact .refl _
    | table | function | thread | userdata => exact anchoring ends
    | failure =>
      obtain ⟨-, rfl⟩ := Ends.throw_iff.mp ends
      exact .refl _
  unfold ofData at ends
  induction data generalizing w result with
  | nil =>
    obtain ⟨-, rfl⟩ := Ends.pure_iff.mp ends
    exact .refl _
  | cons d rest ih =>
    rw [List.mapM_cons] at ends
    rcases Ends.bind_iff.mp ends with ⟨v, w₁, first, others⟩ | ⟨_, -, failed⟩
    · rcases Ends.bind_iff.mp others with ⟨values, w₂, onward, done⟩ | ⟨_, -, failed⟩
      · obtain ⟨-, rfl⟩ := Ends.pure_iff.mp done
        exact (each first).trans (ih onward)
      · exact (each first).trans (ih failed)
    · exact each failed

end Value

theorem sameScripts_concluded (s : StateId) (outcome : Except Fault Outcome) (w : World) :
    w.SameScripts (concluded s outcome w).2 := by
  unfold concluded
  split
  · exact (Value.sameScripts_ofData (.of_run _ w)).trans (.exit s _ _)
  · exact .exit s _ w

/-- A machine that begins a task in a coroutine, with what it is given: a fresh coroutine calls its
function with that, a suspended one goes on with it where it has yielded. -/
inductive Script.Machine.Begins (r : Ref) (data : List Datum) : Progress → Machine → Prop where
  | fresh (body : Datum) : Begins r data (.fresh body)
    { state := r.owner, thread := r, control := .call (.datum body) data {}, isResumed := true }
  | suspended (konts : List Kont) : Begins r data (.suspended konts)
    { state := r.owner, thread := r, control := .give data, konts := konts, isResumed := true }

namespace Handle

variable (h : Handle) (args : List Value) (w : World)

/-- The world of an operation that has found a coroutine to be suspended. -/
def marked : World :=
  ((Scope.operation h.state).enter w).changeThread h.target fun t => { t with resumed := true }

/-- The arguments are handed to the coroutine, in order, and it goes on until a last machine. -/
def GoesOn (m : Machine) (w₁ : World) : Prop :=
  ∃ data progress begun, args.mapM (Value.datum w h.state) = .ok data ∧
    w.progressOf h.target = some progress ∧ Machine.Begins h.target data progress begun ∧
    begun.Comes ((h.marked w).resuming h.state h.target) m w₁ ∧ m.thread = h.target ∧ m.callers = []

/-- The coroutine is left with some progress. -/
structure Left (w₁ : World) (progress : Progress) (w' : World) : Prop where
  thread : w'.thread? h.target =
    (w₁.thread? h.target).map fun t => { t with progress := progress }
  rests : (w'.engine? h.state).map (·.running) ≠ some h.target

/-- Data come out of an engine as values, in order. -/
def ComeOut (data : List Datum) (result : Except Fault (List Value)) : Prop :=
  ∀ values : List Value, values.mapM (Value.datum w h.state) = .ok data →
    ∃ values', result = .ok values' ∧ values'.map Value.bare = values.map Value.bare

/-- What becomes of a coroutine that the bridge resumes. -/
inductive Resumed : Except Fault (List Value) → World → Prop where
  | dead {w' : World} (state : w.threadState h.target = .dead) (same : w.SameScripts w') :
    Resumed (.error (.failed
      ⟨.coroutineDead, "cannot resume dead coroutine", some "coroutine.resume"⟩)) w'
  | running {w' : World} (state : w.threadState h.target = .running) (same : w.SameScripts w') :
    Resumed (.error (.failed
      ⟨.engineRuntime, "cannot resume non-suspended coroutine", some "coroutine.resume"⟩)) w'
  /-- An argument is of another state. -/
  | argument {e : BridgeError} {w' : World}
    (refused : args.mapM (Value.datum w h.state) = .error e) (same : (h.marked w).SameScripts w') :
    Resumed (.error (.failed e)) w'
  | tooDeep {w' : World} (same : (h.marked w).SameScripts w') :
    Resumed (.error (.failed .tooDeep)) w'
  /-- The coroutine waits for another one that it has resumed, and only looks suspended. -/
  | waits {w' : World} (progress : w.progressOf h.target = some .active)
    (stays : ∀ r, w'.progressOf r = w.progressOf r) :
    Resumed (.error (.failed
      ⟨.engineRuntime, "cannot resume non-suspended coroutine", some "engine.runtime"⟩)) w'
  | endless {w' : World} : Resumed (.error .exhausted) w'
  | yields {m : Machine} {w₁ w' : World} {data : List Datum} {result : Except Fault (List Value)}
    (goes : h.GoesOn args w m w₁) (suspends : m.control = .suspend data)
    (out : h.ComeOut w data result) (left : h.Left w₁ (.suspended m.konts) w') : Resumed result w'
  | returns {m : Machine} {w₁ w' : World} {data : List Datum} {result : Except Fault (List Value)}
    (goes : h.GoesOn args w m w₁) (gives : m.control = .give data) (last : m.konts = [])
    (out : h.ComeOut w data result) (left : h.Left w₁ (.ended none) w') : Resumed result w'
  | raises {m : Machine} {w₁ w' : World} {e : EngineError} {failure : Datum}
    (goes : h.GoesOn args w m w₁) (finishes : m.Finishes (.error e) (.ended (some failure)))
    (left : h.Left w₁ (.ended (some failure)) w') : Resumed (.error (.failed e.toBridge)) w'

variable {h args w} {w₁ w' : World} {progress : Progress}

/-- A coroutine that has been left when it ended is dead. -/
theorem Left.dead {failure : Option Datum} (left : h.Left w₁ (.ended failure) w') :
    w'.threadState h.target = .dead := by
  have rests : (w'.engine? h.target.owner).map (·.running) ≠ some h.target := left.rests
  rw [World.threadState, if_neg rests, left.thread]
  cases w₁.thread? h.target <;> rfl

/-- A coroutine that has been left where it yielded is suspended. -/
theorem Left.yielded {konts : List Kont} (left : h.Left w₁ (.suspended konts) w') {t : Thread}
    (there : w₁.thread? h.target = some t) (resumed : t.resumed = true) :
    w'.threadState h.target = .yielded := by
  have rests : (w'.engine? h.target.owner).map (·.running) ≠ some h.target := left.rests
  rw [World.threadState, if_neg rests, left.thread, there]
  simp [World.looksResumable, resumed]

end Handle

section Worlds

variable {w : World} {s : StateId} {r : Ref}

theorem World.isOpen_changeThread (w : World) (r : Ref) (f : Thread → Thread) (s : StateId) :
    (w.changeThread r f).isOpen s = w.isOpen s := by
  unfold World.changeThread
  split
  · exact World.isOpen_write w r _ s
  · rfl

theorem World.running_changeThread (w : World) (r : Ref) (f : Thread → Thread) (s : StateId) :
    ((w.changeThread r f).engine? s).map (·.running) = (w.engine? s).map (·.running) := by
  unfold World.changeThread
  split
  · simp only [World.write, engine?_modifyEngine]
    split
    · rw [Option.map_map]
      rfl
    · rfl
  · rfl

theorem World.progressOf_changeThread (w : World) (r : Ref) {f : Thread → Thread}
    (keeps : ∀ t, (f t).progress = t.progress) (r' : Ref) :
    (w.changeThread r f).progressOf r' = w.progressOf r' := by
  unfold World.progressOf
  rw [World.thread?_changeThread]
  split
  · rename_i same
    rw [same, Option.map_map]
    exact congrArg (Option.map · _) (funext keeps)
  · rfl

theorem World.thread?_setRunning (w : World) (s : StateId) (thread r : Ref) :
    ((Op.setRunning s thread).apply w).2.thread? r = w.thread? r :=
  (World.Alike.modifyEngine w s (f := fun e => { e with running := thread }) fun _ => rfl).thread? r

namespace Handle

variable {h : Handle}

theorem isOpen_marked (h : Handle) (w : World) (s : StateId) : (h.marked w).isOpen s = w.isOpen s :=
  (World.isOpen_changeThread _ _ _ s).trans ((World.SameScripts.enter _ w).alike.isOpen s)

theorem running_marked (h : Handle) (w : World) (s : StateId) :
    ((h.marked w).engine? s).map (·.running) = (w.engine? s).map (·.running) :=
  (World.running_changeThread _ _ _ s).trans ((World.SameScripts.enter _ w).running s)

theorem progress_marked (h : Handle) (w : World) (r : Ref) :
    (h.marked w).progressOf r = w.progressOf r := by
  have kept := World.progressOf_changeThread ((Scope.operation h.state).enter w) h.target
    (f := fun t => { t with resumed := true }) (fun _ => rfl) r
  exact kept.trans ((World.SameScripts.enter _ w).progressOf r)

/-- A coroutine that looks suspended does not run. -/
theorem rests_of_suspended (h : Handle) (w : World) (alive : w.threadState h.target ≠ .dead)
    (rests : w.threadState h.target ≠ .running) :
    (w.engine? h.state).map (·.running) ≠ some h.target ∧
      ∃ t, w.thread? h.target = some t ∧ World.looksResumable t = true := by
  have other : (w.engine? h.state).map (·.running) ≠ some h.target := fun runs => rests (if_pos runs)
  refine ⟨other, ?_⟩
  have state := World.threadState.eq_1 w h.target
  rw [if_neg (show ¬ (w.engine? h.target.owner).map (·.running) = some h.target from other)] at state
  cases found : w.thread? h.target with
  | none => simp [found] at state; exact absurd state alive
  | some t =>
    refine ⟨t, rfl, ?_⟩
    cases looks : World.looksResumable t with
    | true => rfl
    | false => simp [found, looks] at state; exact absurd state alive

/-- A coroutine that is left when its engine has gone back to the one before it. -/
theorem Left.of_resumedFrom {h : Handle} {w w₁ w' : World} {progress : Progress}
    (isOpen : w.isOpen h.state) (rests : (w.engine? h.state).map (·.running) ≠ some h.target)
    (same : ((h.marked w).resumedFrom h.state h.target
      (w₁.changeThread h.target fun t => { t with progress := progress })).SameScripts w') :
    h.Left w₁ progress w' where
  thread := by
    rw [same.thread?, World.resumedFrom, World.thread?_setRunning, World.thread?_changeThread,
      if_pos rfl]
  rests := by
    obtain ⟨e, engine⟩ := Option.isSome_iff_exists.mp isOpen
    have before : ((h.marked w).engine? h.state).map (·.running) = some e.running := by
      rw [h.running_marked, engine]
      rfl
    rw [same.running, World.resumedFrom, before]
    rw [engine] at rests
    simp only [Op.apply, World.engine?_modifyEngine, if_true, Option.map_map]
    intro back
    obtain ⟨_, -, same⟩ := Option.map_eq_some_iff.mp back
    exact rests (congrArg some same)

end Handle

end Worlds

section Engine

variable {w w' : World} {r : Ref} {data : List Datum} {begun : Machine} {progress : Progress}

/-- A coroutine that its engine resumes goes on until a last machine, unless it does not end. -/
theorem Script.Machine.Begins.ends_resume (begins : Machine.Begins r data progress begun)
    (there : w.progressOf r = some progress) {outcome : Except Fault Outcome}
    (ends : Ends (Script.resume r.owner r data) w outcome w') :
    outcome = .error .exhausted ∨ ∃ given m w₁ left, outcome = .ok given ∧
      begun.Comes (w.resuming r.owner r) m w₁ ∧ m.thread = r ∧ m.callers = [] ∧
      m.Finishes given left ∧ w' = w.resumedFrom r.owner r
        (w₁.changeThread r fun t => { t with progress := left }) := by
  have resumes : Ends (Script.resumeAt r.owner r begun.konts begun.control) w outcome w' := by
    unfold Script.resume at ends
    rw [Ends.view_bind_iff, there] at ends
    cases begins with
    | fresh => exact ends
    | suspended => exact ends
  have form : begun = { begun with
      state := r.owner
      thread := r
      callers := []
      isResumed := true } := by
    cases begins <;> rfl
  unfold Script.resumeAt at resumes
  rw [Ends.view_bind_iff, ← form] at resumes
  rw [Ends.straight_bind_iff (Action.straight_updateThread _ _ w), Ends.perform_bind_iff] at resumes
  rcases Ends.bind_iff.mp resumes with ⟨given, w₂, runs, rest⟩ | ⟨f, rfl, runs⟩
  · rw [Ends.perform_bind_iff] at rest
    obtain ⟨rfl, rfl⟩ := Ends.pure_iff.mp rest
    obtain ⟨⟨⟩⟩ | ⟨_, m, w₁, left, same, comes, last, finishes, rfl⟩ := Machine.ends_run runs
    cases same
    obtain ⟨thread, resumed⟩ := comes.thread (by rw [form]) last
    rw [form] at thread resumed
    refine .inr ⟨given, m, w₁, left, rfl, comes, thread, last, finishes, ?_⟩
    rw [Machine.settled, if_pos resumed, thread]
    rfl
  · obtain same | ⟨_, _, _, _, ⟨⟩, -⟩ := Machine.ends_run runs
    exact .inl same

end Engine

namespace Value

variable {h : Handle} {args : List Value} {w w' : World} {result : Except Fault (List Value)}

theorem datum_marked (h : Handle) (w : World) (s : StateId) :
    Value.datum (h.marked w) s = Value.datum w s :=
  funext fun _ => datum_congr (h.isOpen_marked w)

theorem comeOut_concluded {h : Handle} {w w₂ w' : World} {data : List Datum}
    {result : Except Fault (List Value)}
    (left : (result, w') = concluded h.state (.ok (.ok data)) w₂) : h.ComeOut w data result := by
  intro values made
  obtain ⟨values', w₃, goes, same, -⟩ := Value.straight_ofData made w₂
  refine ⟨values', ?_, same⟩
  obtain ⟨rfl, -⟩ := Prod.mk.inj left
  exact ((Ends.straight_iff goes).mp (.of_run _ _)).1

/-- What comes out of the engine that has resumed a coroutine which looks suspended. -/
theorem resumed_of_task {data : List Datum} {outcome : Except Fault Outcome} {w₂ : World}
    (isOpen : w.isOpen h.state)
    (rests : (w.engine? h.state).map (·.running) ≠ some h.target)
    (suspended : ∃ t, w.thread? h.target = some t ∧ World.looksResumable t = true)
    (made : args.mapM (Value.datum w h.state) = .ok data)
    (ends : Ends (Script.runTask h.state (.resume h.target data)) (h.marked w) outcome w₂)
    (left : (result, w') = concluded h.state outcome w₂) : h.Resumed args w result w' := by
  obtain ⟨t, there, looks⟩ := suspended
  have progress : w.progressOf h.target = some t.progress := by rw [World.progressOf, there]; rfl
  have same : w₂.SameScripts w' := by
    have concluded := sameScripts_concluded h.state outcome w₂
    rwa [← left] at concluded
  have going {begun : Machine} (begins : Machine.Begins h.target data t.progress begun) :
      h.Resumed args w result w' := by
    have there := (h.progress_marked w h.target).trans progress
    obtain rfl | ⟨given, m, w₁, last, rfl, comes, thread, alone, finishes, rfl⟩ :=
      begins.ends_resume there ends
    · obtain ⟨rfl, -⟩ := Prod.mk.inj left
      exact .endless
    have goes : h.GoesOn args w m w₁ := ⟨data, _, begun, made, progress, begins, comes, thread, alone⟩
    have leaves : h.Left w₁ last w' := .of_resumedFrom isOpen rests same
    cases finishes with
    | yields suspends => exact .yields goes suspends (comeOut_concluded left) leaves
    | returns gives last => exact .returns goes gives last (comeOut_concluded left) leaves
    | raises raises =>
      obtain ⟨rfl, -⟩ := Prod.mk.inj left
      exact .raises goes (.raises raises) leaves
    | reports gives last shown =>
      obtain ⟨rfl, -⟩ := Prod.mk.inj left
      exact .raises goes (.reports gives last shown) leaves
  cases state : t.progress with
  | fresh body => exact going (by rw [state]; exact .fresh body)
  | suspended konts => exact going (by rw [state]; exact .suspended konts)
  | ended => simp [World.looksResumable, state] at looks
  | active =>
    rw [state] at progress
    change Ends (Script.resume h.state h.target data) _ _ _ at ends
    unfold Script.resume at ends
    rw [Ends.view_bind_iff, h.progress_marked, progress] at ends
    rw [Ends.straight_bind_iff (Action.straight_updateThread _ _ _)] at ends
    obtain ⟨rfl, rfl⟩ := Ends.pure_iff.mp ends
    obtain ⟨rfl, -⟩ := Prod.mk.inj left
    refine .waits progress fun r => ?_
    have settled := h.progress_marked w r
    refine (same.progressOf r).trans (.trans (World.progressOf_changeThread _ _ ?_ r) settled)
    exact fun _ => rfl

/-- What a bridge resume of a coroutine that looks suspended ends with. -/
theorem resumed_of_suspended (isOpen : w.isOpen h.state)
    (rests : (w.engine? h.state).map (·.running) ≠ some h.target)
    (suspended : ∃ t, w.thread? h.target = some t ∧ World.looksResumable t = true) {w₀ : World}
    (ends : Ends (do
      markResumed h.target
      let args ← toData h.state args
      ofData (← ScriptBridge.runTask h.state (.resume h.target args)))
      ((Scope.operation h.state).enter w) result w₀) :
    h.Resumed args w result ((Scope.operation h.state).exit (Scope.kept handles result) w₀) := by
  rcases Ends.bind_iff.mp ends with ⟨_, w₁, marking, rest⟩ | ⟨_, -, failed⟩
  case inr => cases (Ends.markResumed_iff.mp failed).1
  obtain ⟨-, rfl⟩ := Ends.markResumed_iff.mp marking
  change Ends _ (h.marked w) _ _ at rest
  have conversion {converted : Except Fault (List Datum)} {w₁ : World}
      (ends : Ends (toData h.state args) (h.marked w) converted w₁) :
      converted = (args.mapM (Value.datum w h.state)).mapError .failed ∧ w₁ = h.marked w := by
    rw [← datum_marked h w]
    exact Ends.toData_iff.mp ends
  cases made : args.mapM (Value.datum w h.state) with
  | error e =>
    rw [made] at conversion
    rcases Ends.bind_iff.mp rest with ⟨data, w₁, converts, -⟩ | ⟨f, rfl, failed⟩
    · cases (conversion converts).1
    · obtain ⟨same, rfl⟩ := conversion failed
      cases same
      exact .argument made (.exit _ _ _)
  | ok data =>
    rw [made] at conversion
    rcases Ends.bind_iff.mp rest with ⟨data', w₁, converts, rest⟩ | ⟨f, rfl, failed⟩
    · obtain ⟨same, rfl⟩ := conversion converts
      cases same
      rcases runTask_concluded_iff.mp ⟨w₀, rest, rfl⟩ with ⟨rfl, left⟩ | ⟨outcome, w₂, ends, left⟩
      · rw [left]
        exact .tooDeep (.exit _ _ _)
      · exact resumed_of_task isOpen rests suspended made ends left
    · cases (conversion failed).1

/-- What a bridge resume of a coroutine ends with. -/
theorem resume_contract (kind : h.kind = .thread) (isOpen : w.isOpen h.state)
    (ends : Ends ((Value.handle h).call args) w result w') : h.Resumed args w result w' := by
  simp only [call, kind, resume] at ends
  rw [Ends.straight_bind_iff (Action.straight_checkOpen isOpen)] at ends
  obtain ⟨w₀, body, rfl⟩ := Ends.within_iff.mp ends
  rw [Ends.view_bind_iff, World.threadState_enter] at body
  have untouched : w.SameScripts ((Scope.operation h.state).exit []
      ((Scope.operation h.state).enter w)) :=
    .trans (.enter _ w) (.exit _ _ _)
  cases state : w.threadState h.target with
  | dead =>
    rw [state] at body
    obtain ⟨rfl, rfl⟩ := Ends.throw_iff.mp body
    exact .dead state untouched
  | running =>
    rw [state] at body
    obtain ⟨rfl, rfl⟩ := Ends.throw_iff.mp body
    exact .running state untouched
  | fresh | yielded =>
    rw [state] at body
    obtain ⟨rests, suspended⟩ := h.rests_of_suspended w (by simp [state]) (by simp [state])
    exact resumed_of_suspended isOpen rests suspended body

/-- A coroutine that nothing has resumed. -/
def awaiting : List Step := [
  ⟨.openState { engine := { libraries := [.coroutine] }, hostLib := { enabled := false } }, []⟩,
  ⟨.execute 0 "return function(x) coroutine.yield(x) end", ["body"]⟩,
  ⟨.newThread 0 (.handle ⟨.function, ⟨0, 39⟩, 0⟩), ["coroutine"]⟩]

theorem resume_contract_awaiting :
    let h : Handle := ⟨.thread, ⟨0, 40⟩, 1⟩
    ∃ w', h.Resumed [.int 5] (Step.play {} awaiting) (.ok [.int 5]) w' ∧
      w'.threadState h.target = .yielded := by
  intro h
  obtain ⟨isOpen, gives, state⟩ : (Step.play {} awaiting).isOpen h.state = true ∧
      (((Value.handle h).call [.int 5]).run (Step.play {} awaiting)).1 = .ok [.int 5] ∧
      (((Value.handle h).call [.int 5]).run (Step.play {} awaiting)).2.threadState h.target =
        .yielded := by decide +kernel
  exact ⟨_, resume_contract rfl isOpen (Ends.of_run_ok gives), state⟩

end Value

end ScriptBridge
