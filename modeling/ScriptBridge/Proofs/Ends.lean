import ScriptBridge.Proofs.Contract

/-!
How programs end, as a big-step relation: each way of composing programs has one equivalence, so that
a run of a program is taken apart, or put together, along the program.
-/

namespace ScriptBridge

/-- A program that starts in a world may end with a result in another one. -/
def Ends (a : Action α) (w : World) (result : Except Fault α) (w' : World) : Prop :=
  ∃ moments, Runs a w moments (some result) w'

/-- The outcome of a program whose failure is a result. -/
def Fault.caught : Except Fault α → Except Fault (Except BridgeError α)
  | .ok a => .ok (.ok a)
  | .error (.failed e) => .ok (.error e)
  | .error .exhausted => .error .exhausted

/-- The failure of an engine that would have to nest scripts too deeply. -/
def BridgeError.tooDeep : BridgeError := (EngineError.runtime "C stack overflow").toBridge

/-- What the bridge makes of how a task of its engine ends. -/
def taskResult : Except Fault Script.Outcome → Except Fault (List Script.Datum)
  | .ok (.ok data) => .ok data
  | .ok (.error e) => .error (.failed e.toBridge)
  | .error e => .error e

namespace Ends

variable {α β : Type} {w w' : World}

/-- What a program comes to when requests are nested to a fixed depth is one way to end. -/
theorem of_runTo (n : Nat) (a : Action α) (w : World) : Ends a w (a.runTo n w).1 (a.runTo n w).2 :=
  Action.runs_of_runTo n a w

theorem of_run (a : Action α) (w : World) : Ends a w (a.run w).1 (a.run w).2 :=
  of_runTo _ a w

theorem of_run_ok {a : Action α} {x : α} (same : (a.run w).1 = .ok x) :
    Ends a w (.ok x) (a.run w).2 :=
  same ▸ of_run a w

theorem pure_iff {a : α} {result : Except Fault α} :
    Ends (pure a) w result w' ↔ result = .ok a ∧ w' = w := by
  constructor
  · rintro ⟨moments, runs⟩
    exact runs.of_pure.2
  · rintro ⟨rfl, rfl⟩
    exact ⟨[], .pure a w'⟩

theorem fail_iff {f : Fault} {result : Except Fault α} :
    Ends (Action.fail f) w result w' ↔ result = .error f ∧ w' = w := by
  constructor
  · rintro ⟨moments, runs⟩
    cases runs with
    | fail => exact ⟨rfl, rfl⟩
  · rintro ⟨rfl, rfl⟩
    exact ⟨[], .fail f w'⟩

theorem throw_iff {e : BridgeError} {result : Except Fault α} :
    Ends (Action.throw e) w result w' ↔ result = .error (.failed e) ∧ w' = w :=
  fail_iff

theorem ofExcept_iff {a : Except BridgeError α} {result : Except Fault α} :
    Ends (Action.ofExcept a) w result w' ↔ result = a.mapError .failed ∧ w' = w := by
  cases a with
  | ok a => exact pure_iff
  | error e => exact throw_iff

theorem op_iff {o : Op β} {next : β → Action α} {result : Except Fault α} :
    Ends (.op o next) w result w' ↔ Ends (next (o.apply w).1) (o.apply w).2 result w' := by
  constructor
  · rintro ⟨_, runs⟩
    cases runs with
    | op rest => exact ⟨_, rest⟩
  · rintro ⟨_, rest⟩
    exact ⟨_, .op rest⟩

/-- A request ends as a program that may carry it out, and then what follows it. -/
theorem request_iff {r : Request β} {next : β → Action α} {result : Except Fault α} :
    Ends (.request r next) w result w' ↔ ∃ a w₁, r.Begins w a w₁ ∧
      ((∃ b w₂, Ends a w₁ (.ok b) w₂ ∧ Ends (next b) w₂ result w') ∨
        ∃ f, result = .error f ∧ Ends a w₁ (.error f) w') := by
  constructor
  · rintro ⟨_, runs⟩
    cases runs with
    | requestFailed begins inner => exact ⟨_, _, begins, .inr ⟨_, rfl, _, inner⟩⟩
    | requestDone begins inner rest => exact ⟨_, _, begins, .inl ⟨_, _, ⟨_, inner⟩, ⟨_, rest⟩⟩⟩
  · rintro ⟨a, w₁, begins, ⟨b, w₂, ⟨_, inner⟩, ⟨_, rest⟩⟩ | ⟨f, rfl, _, inner⟩⟩
    · exact ⟨_, .requestDone begins inner rest⟩
    · exact ⟨_, .requestFailed begins inner⟩

/-- What follows a scope is given the result of its body. -/
theorem scope_iff {s : Scope} {held : β → List Handle} {body : Action β}
    {next : Except Fault β → Action α} {result : Except Fault α} :
    Ends (.scope s held body next) w result w' ↔ ∃ inner w₁, Ends body (s.enter w) inner w₁ ∧
      Ends (next inner) (s.exit (Scope.kept held inner) w₁) result w' := by
  constructor
  · rintro ⟨_, runs⟩
    cases runs with
    | scopeDone inner rest => exact ⟨_, _, ⟨_, inner⟩, ⟨_, rest⟩⟩
  · rintro ⟨inner, w₁, ⟨_, body⟩, ⟨_, rest⟩⟩
    exact ⟨_, .scopeDone body rest⟩

/-- A sequence ends as what follows its first program, or fails with the first program. -/
theorem bind_iff {a : Action α} {f : α → Action β} {result : Except Fault β} :
    Ends (a >>= f) w result w' ↔
      (∃ x w₁, Ends a w (.ok x) w₁ ∧ Ends (f x) w₁ result w') ∨
        ∃ e, result = .error e ∧ Ends a w (.error e) w' := by
  change Ends (a.bind f) w result w' ↔ _
  induction a generalizing w with
  | pure a =>
    change Ends (f a) w result w' ↔
      (∃ x w₁, Ends (pure a) w (.ok x) w₁ ∧ Ends (f x) w₁ result w') ∨
        ∃ e, result = .error e ∧ Ends (pure a) w (.error e) w'
    constructor
    · exact fun rest => .inl ⟨a, w, pure_iff.mpr ⟨rfl, rfl⟩, rest⟩
    · rintro (⟨x, w₁, done, rest⟩ | ⟨e, rfl, failed⟩)
      · obtain ⟨same, rfl⟩ := pure_iff.mp done
        cases same
        exact rest
      · simp [pure_iff] at failed
  | fail e =>
    change Ends (.fail e) w result w' ↔ _
    constructor
    · intro failed
      obtain ⟨rfl, rfl⟩ := fail_iff.mp failed
      exact .inr ⟨e, rfl, fail_iff.mpr ⟨rfl, rfl⟩⟩
    · rintro (⟨x, w₁, done, -⟩ | ⟨e', rfl, failed⟩)
      · simp [fail_iff] at done
      · obtain ⟨same, rfl⟩ := fail_iff.mp failed
        cases same
        exact fail_iff.mpr ⟨rfl, rfl⟩
  | op o next ih =>
    simp only [Action.bind, op_iff, ih]
  | request r next ih =>
    simp only [Action.bind, request_iff, ih]
    constructor
    · rintro ⟨a, w₁, begins, ⟨b, w₂, inner, ⟨x, w₃, first, rest⟩ | ⟨e, rfl, failed⟩⟩ |
        ⟨e, rfl, failed⟩⟩
      · exact .inl ⟨x, w₃, ⟨a, w₁, begins, .inl ⟨b, w₂, inner, first⟩⟩, rest⟩
      · exact .inr ⟨e, rfl, a, w₁, begins, .inl ⟨b, w₂, inner, failed⟩⟩
      · exact .inr ⟨e, rfl, a, w₁, begins, .inr ⟨e, rfl, failed⟩⟩
    · rintro (⟨x, w₃, ⟨a, w₁, begins, ⟨b, w₂, inner, first⟩ | ⟨e, none, _⟩⟩, rest⟩ |
        ⟨e, rfl, a, w₁, begins, ⟨b, w₂, inner, failed⟩ | ⟨e', same, failed⟩⟩)
      · exact ⟨a, w₁, begins, .inl ⟨b, w₂, inner, .inl ⟨x, w₃, first, rest⟩⟩⟩
      · simp at none
      · exact ⟨a, w₁, begins, .inl ⟨b, w₂, inner, .inr ⟨e, rfl, failed⟩⟩⟩
      · cases same
        exact ⟨a, w₁, begins, .inr ⟨e, rfl, failed⟩⟩
  | scope s held body next ihBody ihNext =>
    simp only [Action.bind, scope_iff, ihNext]
    constructor
    · rintro ⟨inner, w₁, ends, ⟨x, w₂, first, rest⟩ | ⟨e, rfl, failed⟩⟩
      · exact .inl ⟨x, w₂, ⟨inner, w₁, ends, first⟩, rest⟩
      · exact .inr ⟨e, rfl, inner, w₁, ends, failed⟩
    · rintro (⟨x, w₂, ⟨inner, w₁, ends, first⟩, rest⟩ | ⟨e, rfl, inner, w₁, ends, failed⟩)
      · exact ⟨inner, w₁, ends, .inl ⟨x, w₂, first, rest⟩⟩
      · exact ⟨inner, w₁, ends, .inr ⟨e, rfl, failed⟩⟩

/-- A sequence succeeds where both of its programs do. -/
theorem of_bind_ok {a : Action α} {f : α → Action β} {y : β} (ends : Ends (a >>= f) w (.ok y) w') :
    ∃ x w₁, Ends a w (.ok x) w₁ ∧ Ends (f x) w₁ (.ok y) w' := by
  rcases bind_iff.mp ends with both | ⟨_, none, -⟩
  · exact both
  · cases none

theorem then_ok {a : Action α} {f : α → Action β} {x : α} {w₁ : World} {result : Except Fault β}
    (first : Ends a w (.ok x) w₁) (rest : Ends (f x) w₁ result w') : Ends (a >>= f) w result w' :=
  bind_iff.mpr (.inl ⟨x, w₁, first, rest⟩)

theorem then_error {a : Action α} {f : α → Action β} {e : Fault}
    (failed : Ends a w (.error e) w') : Ends (a >>= f) w (.error e) w' :=
  bind_iff.mpr (.inr ⟨e, rfl, failed⟩)

theorem perform_iff {o : Op α} {result : Except Fault α} :
    Ends (Action.perform o) w result w' ↔ result = .ok (o.apply w).1 ∧ w' = (o.apply w).2 :=
  op_iff.trans pure_iff

/-- A sequence that begins with an elementary operation. -/
theorem perform_bind_iff {o : Op α} {f : α → Action β} {result : Except Fault β} :
    Ends (Action.perform o >>= f) w result w' ↔ Ends (f (o.apply w).1) (o.apply w).2 result w' :=
  op_iff

/-- A sequence that begins with a look at the world. -/
theorem view_bind_iff {look : World → α} {f : α → Action β} {result : Except Fault β} :
    Ends (Action.view look >>= f) w result w' ↔ Ends (f (look w)) w result w' :=
  op_iff

theorem view_iff {look : World → α} {result : Except Fault α} :
    Ends (Action.view look) w result w' ↔ result = .ok (look w) ∧ w' = w :=
  perform_iff

/-- What follows a look at the world for something that may be missing. -/
theorem find_bind_iff {look : World → Except BridgeError α} {f : α → Action β}
    {result : Except Fault β} :
    Ends (Action.view look >>= fun found => Action.ofExcept found >>= f) w result w' ↔
      match look w with
      | .ok x => Ends (f x) w result w'
      | .error e => result = .error (.failed e) ∧ w' = w := by
  rw [view_bind_iff]
  cases look w with
  | ok => exact Iff.rfl
  | error => exact throw_iff

theorem map_iff {a : Action α} {f : α → β} {result : Except Fault β} :
    Ends (f <$> a) w result w' ↔ ∃ inner, Ends a w inner w' ∧ result = inner.map f := by
  rw [map_eq_pure_bind, bind_iff]
  constructor
  · rintro (⟨x, w₁, first, done⟩ | ⟨e, rfl, failed⟩)
    · obtain ⟨rfl, rfl⟩ := pure_iff.mp done
      exact ⟨.ok x, first, rfl⟩
    · exact ⟨.error e, failed, rfl⟩
  · rintro ⟨e | x, ends, rfl⟩
    · exact .inr ⟨e, rfl, ends⟩
    · exact .inl ⟨x, w', ends, pure_iff.mpr ⟨rfl, rfl⟩⟩

theorem discard_iff {a : Action α} {result : Except Fault Unit} :
    Ends (discard a) w result w' ↔
      ∃ inner, Ends a w inner w' ∧ result = inner.map fun _ => () :=
  map_iff (f := fun _ => ())

/-- What each item of a list keeps, the whole list keeps. -/
theorem keeps_mapM {items : List α} {f : α → Action β} {I : World → Prop}
    (each : ∀ item v result v', I v → Ends (f item) v result v' → I v')
    {result : Except Fault (List β)} (ends : Ends (items.mapM f) w result w') (holds : I w) :
    I w' := by
  induction items generalizing w result with
  | nil =>
    obtain ⟨-, rfl⟩ := pure_iff.mp ends
    exact holds
  | cons item rest ih =>
    rw [List.mapM_cons] at ends
    rcases bind_iff.mp ends with ⟨y, w₁, first, going⟩ | ⟨e, -, failed⟩
    · have kept := each item w _ w₁ holds first
      rcases bind_iff.mp going with ⟨ys, w₂, others, done⟩ | ⟨e, -, failed⟩
      · obtain ⟨-, rfl⟩ := pure_iff.mp done
        exact ih others kept
      · exact ih failed kept
    · exact each item w _ w' holds failed

/-- What is done in a scope ends with the scope. -/
theorem within_iff [Holding α] {s : Scope} {body : Action α} {result : Except Fault α} :
    Ends (Action.within s body) w result w' ↔ ∃ w₁, Ends body (s.enter w) result w₁ ∧
      w' = s.exit (Scope.kept handles result) w₁ := by
  have resulting {inner result : Except Fault α} {w₁ : World} :
      Ends (Action.ofResult inner) w₁ result w' ↔ result = inner ∧ w' = w₁ := by
    cases inner with
    | ok a => exact pure_iff
    | error f => exact fail_iff
  refine scope_iff.trans ?_
  simp only [resulting]
  constructor
  · rintro ⟨_, w₁, ends, rfl, rfl⟩
    exact ⟨w₁, ends, rfl⟩
  · rintro ⟨w₁, ends, rfl⟩
    exact ⟨result, w₁, ends, rfl, rfl⟩

/-- A program whose failure is a result. -/
theorem attempt_iff [Holding α] {body : Action α} {result : Except Fault (Except BridgeError α)} :
    Ends (Action.attempt body) w result w' ↔ ∃ inner w₁,
      Ends body (Scope.values.enter w) inner w₁ ∧ result = Fault.caught inner ∧
        w' = Scope.values.exit (Scope.kept handles inner) w₁ := by
  refine scope_iff.trans (exists_congr fun inner => exists_congr fun w₁ => and_congr_right fun _ => ?_)
  rcases inner with (e | _) | a
  · exact pure_iff
  · exact fail_iff
  · exact pure_iff

/-- A failure in a scope is one of the scope. -/
theorem within_error [Holding α] {s : Scope} {body : Action α} {f : Fault}
    (failed : Ends body (s.enter w) (.error f) w') :
    Ends (Action.within s body) w (.error f) (s.exit [] w') :=
  within_iff.mpr ⟨w', failed, rfl⟩

/-- A scope fails as its body does when that fails in every run, in one world. -/
theorem within_error_iff [Holding α] {s : Scope} {body : Action α} {f : Fault} {w₁ : World}
    (fails : ∀ result w₂, Ends body (s.enter w) result w₂ ↔ result = .error f ∧ w₂ = w₁)
    {result : Except Fault α} :
    Ends (Action.within s body) w result w' ↔ result = .error f ∧ w' = s.exit [] w₁ := by
  rw [within_iff]
  constructor
  · rintro ⟨w₂, ends, rfl⟩
    obtain ⟨rfl, rfl⟩ := (fails _ _).mp ends
    exact ⟨rfl, rfl⟩
  · rintro ⟨rfl, rfl⟩
    exact ⟨w₁, (fails _ _).mpr ⟨rfl, rfl⟩, rfl⟩

/-- A failure that a program catches is a result. -/
theorem attempt_error [Holding α] {body : Action α} {e : BridgeError}
    (failed : Ends body (Scope.values.enter w) (.error (.failed e)) w') :
    Ends (Action.attempt body) w (.ok (.error e)) (Scope.values.exit [] w') :=
  attempt_iff.mpr ⟨_, w', failed, rfl, rfl⟩

/-- An engine carries out a task, or refuses to because scripts are nested too deeply. -/
theorem runTask_iff {s : StateId} {task : Task} {result : Except Fault (List Script.Datum)} :
    Ends (ScriptBridge.runTask s task) w result w' ↔
      (result = .error (.failed BridgeError.tooDeep) ∧ w' = w) ∨
        ∃ outcome, Ends (Script.runTask s task) w outcome w' ∧ result = taskResult outcome := by
  have hands (outcome : Script.Outcome) (w₁ : World) : Ends (match outcome with
      | .ok data => pure data
      | .error e => .throw e.toBridge) w₁ result w' ↔ result = taskResult (.ok outcome) ∧ w' = w₁ := by
    cases outcome with
    | ok data => exact pure_iff
    | error e => exact throw_iff
  refine request_iff.trans ?_
  constructor
  · rintro ⟨a, w₁, begins, ⟨outcome, w₂, inner, rest⟩ | ⟨f, rfl, inner⟩⟩
    · obtain ⟨rfl, rfl⟩ := (hands outcome w₂).mp rest
      obtain ⟨rfl, rfl | rfl⟩ := begins.plain trivial
      · exact .inr ⟨_, inner, rfl⟩
      · obtain ⟨same, rfl⟩ := pure_iff.mp inner
        cases same
        exact .inl ⟨rfl, rfl⟩
    · obtain ⟨rfl, rfl | rfl⟩ := begins.plain trivial
      · exact .inr ⟨_, inner, rfl⟩
      · cases (pure_iff.mp inner).1
  · rintro (⟨rfl, rfl⟩ | ⟨outcome, inner, rfl⟩)
    · exact ⟨_, w', .refused _ _, .inl ⟨_, w', pure_iff.mpr ⟨rfl, rfl⟩,
        (hands (.error (.runtime "C stack overflow")) w').mpr ⟨rfl, rfl⟩⟩⟩
    · refine ⟨_, w, .program _ _, ?_⟩
      cases outcome with
      | ok outcome => exact .inl ⟨outcome, w', inner, (hands _ _).mpr ⟨rfl, rfl⟩⟩
      | error f => exact .inr ⟨f, rfl, inner⟩

/-- What follows the conversion of a value to a datum, if there is a datum. -/
theorem toDatum_bind_iff {s : StateId} {v : Value} {f : Script.Datum → Action α}
    {result : Except Fault α} : Ends (v.toDatum s >>= f) w result w' ↔
      match v.datum w s with
      | .ok d => Ends (f d) w result w'
      | .error e => result = .error (.failed e) ∧ w' = w := by
  rw [Value.toDatum, bind_assoc, view_bind_iff]
  cases v.datum w s with
  | error e => exact throw_iff
  | ok d => exact Iff.rfl

/-- To convert values to data is to look at the world. -/
theorem toData_iff {s : StateId} {values : List Value}
    {result : Except Fault (List Script.Datum)} :
    Ends (Value.toData s values) w result w' ↔
      result = (values.mapM (Value.datum w s)).mapError .failed ∧ w' = w := by
  induction values generalizing result w' with
  | nil => exact pure_iff
  | cons v rest ih =>
    unfold Value.toData at ih ⊢
    rw [List.mapM_cons, List.mapM_cons]
    change Ends (Action.view (v.datum · s) >>= fun datum => Action.ofExcept datum >>= fun d => _)
      w result w' ↔ _
    rw [view_bind_iff]
    cases v.datum w s with
    | error e => exact throw_iff
    | ok d =>
      refine Iff.trans (map_iff (a := rest.mapM (Value.toDatum s)) (f := (d :: ·))) ?_
      simp only [ih, and_assoc, exists_eq_left]
      rw [and_comm]
      cases rest.mapM (Value.datum w s) <;> exact Iff.rfl

end Ends

end ScriptBridge
