import ScriptBridge.Proofs.Coroutines

/-!
Bridge resumes that fail before the body of a coroutine goes on: what they leave behind. A coroutine
counts as resumed from the moment at which it is found to be suspended, so one whose arguments are
refused does, too.
-/

namespace ScriptBridge

open Script (Datum Thread)

namespace Handle

/-- Why a bridge resume fails before the body goes on: the failure, and the world in which the bridge
notices. -/
inductive Refused (h : Handle) (args : List Value) (w : World) : BridgeError → World → Prop where
  | dead (isOpen : w.isOpen h.state) (state : w.threadState h.target = .dead) :
    Refused h args w ⟨.coroutineDead, "cannot resume dead coroutine", some "coroutine.resume"⟩
      ((Scope.operation h.state).enter w)
  | running (isOpen : w.isOpen h.state) (state : w.threadState h.target = .running) :
    Refused h args w
      ⟨.engineRuntime, "cannot resume non-suspended coroutine", some "coroutine.resume"⟩
      ((Scope.operation h.state).enter w)
  /-- An argument is of another state, or of a closed one. -/
  | argument {e : BridgeError} (isOpen : w.isOpen h.state)
    (state : w.threadState h.target = .fresh ∨ w.threadState h.target = .yielded)
    (refused : args.mapM (Value.datum w h.state) = .error e) : Refused h args w e (h.marked w)

variable {h : Handle} {args : List Value} {w w₁ : World} {e : BridgeError}

theorem Refused.isOpen (refused : h.Refused args w e w₁) : w.isOpen h.state := by
  cases refused <;> assumption

/-- A coroutine counts as resumed once it has been found to be suspended. -/
theorem threadState_marked (h : Handle) (w : World) (r : Ref) :
    (h.marked w).threadState r =
      if r = h.target ∧ w.threadState r = .fresh then .yielded else w.threadState r := by
  have there : (h.marked w).thread? r =
      if r = h.target then (w.thread? r).map fun t => { t with resumed := true }
      else w.thread? r := by
    have same := World.SameScripts.enter h.state w
    rw [marked, World.thread?_changeThread]
    split
    · rename_i target
      rw [same.thread?, target]
    · rw [same.thread?]
  simp only [World.threadState, h.running_marked, there]
  by_cases target : r = h.target
  · subst target
    by_cases runs : (w.engine? h.target.owner).map (·.running) = some h.target
    · simp [runs]
    obtain found | ⟨t, found⟩ := (w.thread? h.target).eq_none_or_eq_some
    · simp [runs, found]
    · have looks : World.looksResumable { t with resumed := true } = World.looksResumable t := rfl
      cases marked : t.resumed <;> cases resumable : World.looksResumable t <;>
        simp [runs, found, looks, marked, resumable]
  · simp [target]

/-- Where a resume is refused, only a coroutine whose arguments are refused looks different from
before. -/
theorem Refused.threadState_eq (refused : h.Refused args w e w₁) (r : Ref) :
    w₁.threadState r =
      if r = h.target ∧ w.threadState r = .fresh then .yielded else w.threadState r := by
  cases refused with
  | argument => exact h.threadState_marked w r
  | dead isOpen state | running isOpen state =>
    rw [World.threadState_enter, if_neg]
    rintro ⟨rfl, fresh⟩
    rw [state] at fresh
    cases fresh

theorem Refused.progressOf_eq (refused : h.Refused args w e w₁) (r : Ref) :
    w₁.progressOf r = w.progressOf r := by
  cases refused with
  | argument => exact h.progress_marked w r
  | dead | running => exact (World.SameScripts.enter _ w).progressOf r

theorem Refused.running_eq (refused : h.Refused args w e w₁) (s : StateId) :
    (w₁.engine? s).map (·.running) = (w.engine? s).map (·.running) := by
  cases refused with
  | argument => exact h.running_marked w s
  | dead | running => exact (World.SameScripts.enter _ w).running s

end Handle

namespace Value

variable {h : Handle} {args : List Value} {w w₁ w' : World} {e : BridgeError}

/-- What the bridge does once it has found a coroutine to be suspended. -/
private def handArgs (h : Handle) (args : List Value) : Action (List Value) := do
  markResumed h.target
  let args ← toData h.state args
  ofData (← ScriptBridge.runTask h.state (.resume h.target args))

/-- An argument is refused when the coroutine counts as resumed already. -/
private theorem ends_handArgs (refused : args.mapM (Value.datum w h.state) = .error e)
    {result : Except Fault (List Value)} :
    Ends (handArgs h args) ((Scope.operation h.state).enter w) result w' ↔
      result = .error (.failed e) ∧ w' = h.marked w := by
  have converted {converted : Except Fault (List Datum)} {w₁ : World} :
      Ends (toData h.state args) (h.marked w) converted w₁ ↔
        converted = .error (.failed e) ∧ w₁ = h.marked w := by
    rw [Ends.toData_iff, datum_marked, refused]
    rfl
  unfold handArgs
  rw [Ends.bind_iff]
  constructor
  · rintro (⟨_, w₁, marking, rest⟩ | ⟨f, rfl, failed⟩)
    · obtain ⟨-, rfl⟩ := Ends.markResumed_iff.mp marking
      rcases Ends.bind_iff.mp rest with ⟨data, w₁, converts, -⟩ | ⟨f, rfl, failed⟩
      · cases (converted.mp converts).1
      · obtain ⟨same, rfl⟩ := converted.mp failed
        cases same
        exact ⟨rfl, rfl⟩
    · cases (Ends.markResumed_iff.mp failed).1
  · rintro ⟨rfl, rfl⟩
    exact .inl ⟨(), _, Ends.markResumed_iff.mpr ⟨rfl, rfl⟩,
      Ends.then_error (converted.mpr ⟨rfl, rfl⟩)⟩

/-- A bridge resume that is refused ends with the failure, in the world that the bridge has then. -/
theorem ends_refused (kind : h.kind = .thread) (refused : h.Refused args w e w₁)
    {result : Except Fault (List Value)} : Ends ((Value.handle h).call args) w result w' ↔
      result = .error (.failed e) ∧ w' = (Scope.operation h.state).exit [] w₁ := by
  simp only [call, kind, resume]
  rw [Ends.straight_bind_iff (Action.straight_checkOpen refused.isOpen)]
  refine Ends.within_error_iff fun result w₂ => ?_
  rw [Ends.view_bind_iff, World.threadState_enter]
  cases refused with
  | dead _ state | running _ state =>
    rw [state]
    exact Ends.throw_iff
  | argument _ state refused =>
    rcases state with state | state <;> rw [state] <;> exact ends_handArgs refused

/-- A bridge resume that is refused before the body of the coroutine goes on ends with its failure
in every run. Nothing has gone on anywhere, and every coroutine is in the state in which it was,
except that a coroutine which nothing had resumed counts as one that has yielded if an argument was
refused. -/
theorem resume_refused (kind : h.kind = .thread) (refused : h.Refused args w e w₁) : ∃ w',
    (∀ result w'', Ends ((Value.handle h).call args) w result w'' ↔
      result = .error (.failed e) ∧ w'' = w') ∧
    (∀ r, w'.threadState r =
      if r = h.target ∧ w.threadState r = .fresh then .yielded else w.threadState r) ∧
    (∀ r, w'.progressOf r = w.progressOf r) ∧
    ∀ s, (w'.engine? s).map (·.running) = (w.engine? s).map (·.running) := by
  have left := World.SameScripts.exit h.state [] w₁
  exact ⟨_, fun _ _ => ends_refused kind refused,
    fun r => (left.threadState r).trans (refused.threadState_eq r),
    fun r => (left.progressOf r).trans (refused.progressOf_eq r),
    fun s => (left.running s).trans (refused.running_eq s)⟩

/-- A coroutine that nothing has resumed, and a table of another state. -/
def estranged : List Step := [
  ⟨.openState .bare, []⟩, ⟨.execute 0 "return function() end", ["body"]⟩,
  ⟨.newThread 0 (.handle ⟨.function, ⟨0, 30⟩, 0⟩), ["coroutine"]⟩, ⟨.openState .bare, []⟩,
  ⟨.newTable 1, ["table"]⟩]

theorem resume_refused_estranged : (Step.play {} estranged).threadState ⟨0, 31⟩ = .fresh ∧ ∃ w',
    Ends ((Value.handle ⟨.thread, ⟨0, 31⟩, 1⟩).call [.handle ⟨.table, ⟨1, 29⟩, 0⟩])
      (Step.play {} estranged)
      (.error (.failed (.typeMismatch "table value belongs to another state"))) w' ∧
    w'.threadState ⟨0, 31⟩ = .yielded := by
  obtain ⟨isOpen, fresh, other⟩ : (Step.play {} estranged).isOpen 0 = true ∧
      (Step.play {} estranged).threadState ⟨0, 31⟩ = .fresh ∧
      (Value.handle ⟨.table, ⟨1, 29⟩, 0⟩).datum (Step.play {} estranged) 0 =
        .error (.typeMismatch "table value belongs to another state") := by decide +kernel
  have refused : List.mapM (Value.datum (Step.play {} estranged) 0) [.handle ⟨.table, ⟨1, 29⟩, 0⟩] =
      .error (.typeMismatch "table value belongs to another state") := by
    simp [other, bind, Except.bind]
  obtain ⟨w', ends, states, -⟩ := resume_refused (h := ⟨.thread, ⟨0, 31⟩, 1⟩) rfl
    (.argument isOpen (.inl fresh) refused)
  exact ⟨fresh, w', (ends _ _).mpr ⟨rfl, rfl⟩, by rw [states, if_pos ⟨rfl, fresh⟩]⟩

end Value

end ScriptBridge
