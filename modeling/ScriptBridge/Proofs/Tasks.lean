import ScriptBridge.Proofs.Origins
import ScriptBridge.Proofs.Threads

/-!
How tasks end: the machine that a task has come to has no coroutine left that waits, and ends in one
of three ways, each of which leaves the coroutine of the task in a state of its own.
-/

namespace ScriptBridge.Script.Machine

/-- How a machine without frames that could go on ends its task, and how far its coroutine is then. -/
inductive Finishes (m : Machine) : Outcome → Progress → Prop where
  | yields {values : List Datum} (suspends : m.control = .suspend values) :
    Finishes m (.ok values) (.suspended m.konts)
  | returns {values : List Datum} (gives : m.control = .give values) (last : m.konts = []) :
    Finishes m (.ok values) (.ended none)
  | raises {e : EngineError} {site : Option Site} (raises : m.control = .raise (.failure e) site) :
    Finishes m (.error e) (.ended (some (.failure e)))
  /-- The text of a failure that scripts have raised is there. -/
  | reports {values : List Datum} {trace text : String} (gives : m.control = .give values)
    (last : m.konts = [.report trace])
    (shown : text = Bytes.toText ((first values).asText.getD [])) :
    Finishes m (.error (.runtime (text ++ "\n" ++ trace))) (.ended (some (.str text)))

/-- The world after a machine has ended its task. -/
def settled (m : Machine) (progress : Progress) (w : World) : World :=
  if m.isResumed then w.changeThread m.thread fun t => { t with progress := progress } else w

/-- A machine goes on, step by step, to another one. -/
inductive Comes : Machine → World → Machine → World → Prop where
  | here (m : Machine) (w : World) : Comes m w m w
  | step {m m₁ m' : Machine} {w w₁ w' : World} (goes : Ends m.step w (.ok (.continue m₁)) w₁)
    (rest : Comes m₁ w₁ m' w') : Comes m w m' w'

variable {m m' : Machine} {w w' : World} {outcome : Outcome}

/-- All machines of a task have begun in one coroutine. -/
theorem Comes.origin (comes : Comes m w m' w') : m'.origin = m.origin := by
  induction comes with
  | here => rfl
  | step goes _ ih =>
    have same : Machine.Onward _ (.continue _) := (onward_step _).brings.of_ends goes
    exact ih.trans same

theorem done_endTask {progress : Progress} {result : Except Fault Next}
    (ends : Ends (m.endTask progress outcome) w result w') :
    result = .ok (.done outcome) ∧ w' = m.settled progress w := by
  unfold endTask at ends
  unfold settled
  split at ends
  · rename_i resumed
    rw [if_pos resumed]
    rcases Ends.bind_iff.mp ends with ⟨_, w₁, updated, done⟩ | ⟨_, -, failed⟩
    · obtain ⟨-, rfl⟩ := Ends.updateThread_iff.mp updated
      exact Ends.pure_iff.mp done
    · cases (Ends.updateThread_iff.mp failed).1
  · rename_i entered
    rw [if_neg entered]
    exact Ends.pure_iff.mp ends

/-- What goes on has not ended. -/
theorem not_done_map {a : Action Machine} :
    ¬ Ends (Next.continue <$> a) w (.ok (.done outcome)) w' := by
  rw [Ends.map_iff]
  rintro ⟨_ | _, -, same⟩ <;> cases same

theorem not_done_pure : ¬ Ends (pure (Next.continue m')) w (.ok (.done outcome)) w' := by
  rw [Ends.pure_iff]
  rintro ⟨same, -⟩
  cases same

theorem not_done_bind {a : Action Machine} {f : Machine → Machine} :
    ¬ Ends (a >>= fun m => pure (Next.continue (f m))) w (.ok (.done outcome)) w' := by
  rw [Ends.bind_iff]
  rintro (⟨_, _, -, done⟩ | ⟨_, same, -⟩)
  · exact not_done_pure done
  · cases same

theorem done_complete {progress : Progress} {values : List Datum}
    (ends : Ends (m.complete progress values) w (.ok (.done outcome)) w') :
    m.callers = [] ∧ outcome = .ok values ∧ w' = m.settled progress w := by
  unfold complete at ends
  split at ends
  · rename_i alone
    obtain ⟨same, world⟩ := done_endTask ends
    cases same
    exact ⟨alone, rfl, world⟩
  · exact (not_done_bind ends).elim

theorem done_uncaught {e : Datum} {site : Option Site}
    (ends : Ends (m.uncaught e site) w (.ok (.done outcome)) w') :
    m.callers = [] ∧ ∃ failure, e = .failure failure ∧ outcome = .error failure ∧
      w' = m.settled (.ended (some e)) w := by
  unfold uncaught at ends
  split at ends
  · exact (not_done_bind ends).elim
  · rename_i alone
    split at ends
    · obtain ⟨same, world⟩ := done_endTask ends
      cases same
      exact ⟨alone, _, rfl, rfl, world⟩
    · rw [Ends.view_bind_iff] at ends
      exact (not_done_map ends).elim

/-- The last step of a task. -/
theorem done_step (ends : Ends m.step w (.ok (.done outcome)) w') :
    m.callers = [] ∧ ∃ progress, m.Finishes outcome progress ∧ w' = m.settled progress w := by
  unfold step at ends
  split at ends
  case h_4 values gives =>
    split at ends
    · rename_i last
      obtain ⟨alone, rfl, world⟩ := done_complete ends
      exact ⟨alone, _, .returns gives last, world⟩
    · rename_i trace last alone
      obtain ⟨same, world⟩ := done_endTask ends
      cases same
      exact ⟨alone, _, .reports gives last rfl, world⟩
    · exact (not_done_map ends).elim
  case h_8 e site raises =>
    unfold catchFailure at ends
    split at ends
    case h_5 =>
      obtain ⟨alone, failure, rfl, rfl, world⟩ := done_uncaught ends
      exact ⟨alone, _, .raises raises, world⟩
    all_goals exact (not_done_pure ends).elim
  case h_9 values suspends =>
    obtain ⟨alone, rfl, world⟩ := done_complete ends
    exact ⟨alone, _, .yields suspends, world⟩
  all_goals first
    | exact (not_done_map ends).elim
    | exact (not_done_pure ends).elim

/-- A task fails only by not coming to an end; else it has come to a last machine. -/
theorem ends_run {n : Nat} {result : Except Fault Outcome} (ends : Ends (m.run n) w result w') :
    result = .error .exhausted ∨ ∃ outcome m' w₁ progress, result = .ok outcome ∧
      Comes m w m' w₁ ∧ m'.callers = [] ∧ m'.Finishes outcome progress ∧
      w' = m'.settled progress w₁ := by
  induction n generalizing m w with
  | zero => exact .inl (Ends.fail_iff.mp ends).1
  | succ n ih =>
    rcases Ends.bind_iff.mp ends with ⟨next, w₁, first, rest⟩ | ⟨f, rfl, failed⟩
    · cases next with
      | «continue» m₁ =>
        obtain faulted | ⟨outcome, m', w₂, progress, same, comes, finished⟩ := ih rest
        · exact .inl faulted
        · exact .inr ⟨outcome, m', w₂, progress, same, .step first comes, finished⟩
      | done outcome =>
        obtain ⟨rfl, rfl⟩ := Ends.pure_iff.mp rest
        obtain ⟨alone, progress, finishes, settled⟩ := done_step first
        exact .inr ⟨outcome, m, w, progress, rfl, .here m w, alone, finishes, settled⟩
    · exact .inl (congrArg Except.error (m.onward_step.brings.of_ends failed : f = .exhausted))

/-- A task that ends does so in the coroutine in which it has begun. -/
theorem Comes.thread (comes : Comes m w m' w') (alone : m.callers = []) (last : m'.callers = []) :
    m'.thread = m.thread ∧ m'.isResumed = m.isResumed := by
  have same := comes.origin
  unfold Machine.origin at same
  rw [alone, last] at same
  exact Prod.ext_iff.mp (congrArg Prod.snd same)

end ScriptBridge.Script.Machine
