import ScriptBridge.Execution
import ScriptBridge.Proofs.Balance
import ScriptBridge.Proofs.Computed
import ScriptBridge.Proofs.IntegerTexts
import ScriptBridge.Proofs.Signatures
import ScriptBridge.Proofs.Unfailing

/-!
The lines of failed runs. A message of the engine begins with the identifier of a chunk and a line, and the
line is looked for in the whole message: digits between the colons of the identifier are taken for it.
-/

namespace ScriptBridge

namespace Text

theorem splitOn_append (separator : Char) (before after : List Char) :
    splitOn separator (before ++ separator :: after) =
      splitOn separator before ++ splitOn separator after := by
  simp only [splitOn_eq, List.splitOn_append_cons_self]

theorem splitOn_ne_nil (separator : Char) (s : List Char) : splitOn separator s ≠ [] := by
  rw [splitOn_eq]
  exact List.splitOn_ne_nil _ _

/-- The first digits that fill the place between two colons, or between the last one and the end. -/
def digitsBetween? (s : List Char) : Option (List Char) :=
  ((splitOn ':' s).drop 1).find? Numeral.isDigits

theorem digitsBetween?_append (before after : List Char) :
    digitsBetween? (before ++ ':' :: after) =
      (digitsBetween? before).or ((splitOn ':' after).find? Numeral.isDigits) := by
  have nonempty : 1 ≤ (splitOn ':' before).length :=
    List.length_pos_iff.mpr (splitOn_ne_nil ':' before)
  rw [digitsBetween?, splitOn_append, List.drop_append_of_le_length nonempty, List.find?_append,
    digitsBetween?]

theorem find?_splitOn_digits {digits : List Char} (all : Numeral.isDigits digits = true)
    (rest : List Char) :
    (splitOn ':' (digits ++ ':' :: rest)).find? Numeral.isDigits = some digits := by
  have absent : ':' ∉ digits := fun member =>
    absurd ((Numeral.isDigits_iff.mp all).2 _ member) (by decide)
  rw [splitOn_append, splitOn_eq, List.splitOn_eq_singleton absent, List.singleton_append,
    List.find?_cons_of_pos all]

end Text

/-- A line that a report can tell. -/
def reportable (n : Nat) : Option Nat := if n < 2 ^ 64 then some n else none

theorem reportable_eq_some_iff {n m : Nat} : reportable n = some m ↔ m < 2 ^ 64 ∧ n = m := by
  unfold reportable
  split <;> grind

theorem lineOf_eq (message : String) :
    lineOf message = (Text.digitsBetween? message.toList).bind fun digits =>
      reportable (Numeral.decimalValue digits) := by
  unfold lineOf Text.digitsBetween? Numeral.isDigits Numeral.isDigit
  dsimp only
  split
  all_goals
    rename_i found
    rw [found]
    rfl

/-- The line of a message that begins with a position is that of the position if there are no digits
between the colons of the name in it. -/
theorem lineOf_position (name : String) (n : Nat) (rest : String) :
    lineOf (name ++ ":" ++ toString n ++ ":" ++ rest) =
      reportable ((Text.digitsBetween? name.toList).elim n Numeral.decimalValue) := by
  have chars : (name ++ ":" ++ toString n ++ ":" ++ rest).toList =
      name.toList ++ ':' :: (Nat.toDigits 10 n ++ ':' :: rest.toList) := by
    simp [String.toList_append]
  rw [lineOf_eq, chars, Text.digitsBetween?_append, Text.find?_splitOn_digits (Numeral.isDigits_toDigits n)]
  cases Text.digitsBetween? name.toList with
  | some d => rfl
  | none => exact congrArg reportable (Numeral.decimalValue_toDigits n)

namespace State

variable {n : Nat} {s : StateId} {name source : String} {failure : EngineError} {w w₁ : World}

/-- A chunk fails as its task does. -/
theorem runTo_executeNamed_error
    (answered : (Script.runTask s (.chunk (.ofString name) (.ofString source) [])).runTo n
      ((Scope.operation s).enter (Scope.values.enter w)) = (.ok (.error failure), w₁)) :
    ∃ w', (executeNamed s name source).runTo (n + 1) w =
      (.error (.failed failure.toBridge), w') := by
  have body : (executing s name source).runTo (n + 1) (Scope.values.enter w) = _ :=
    Action.runTo_operation_exit (Action.runTo_bind_error (Action.runTo_task answered))
  obtain ⟨v, attempted⟩ : ∃ v, (Action.attempt (executing s name source)).runTo (n + 1) w =
      (.ok (.error failure.toBridge), v) := ⟨_, Action.runTo_attempt_error body⟩
  have guarded : (Action.attempt (executing s name source)).Guarded [s] :=
    .attempt <| .operation <| .bind (guarded_runTask (.inl List.mem_cons_self)) fun _ =>
      Value.guarded_ofData _
  have level : depth v s = depth w s := by
    obtain ⟨moments, runs⟩ := Action.runs_of_runTo (n + 1) (Action.attempt (executing s name source)) w
    rw [attempted] at runs
    exact (runs.keeps rfl guarded).depth_eq nofun s
  refine ⟨v, Action.runTo_view_bind.trans <| (Action.runTo_bind_ok attempted).trans <|
    Action.runTo_view_bind.trans <| Action.runTo_view_bind.trans ?_⟩
  rw [if_neg (by simp [level])]
  exact Action.runTo_throw _ _ _

theorem brings_close (s : StateId) : (close s).Brings fun _ => True := by
  refine .next fun isOpen => ?_
  split
  · exact .after (.within (.next fun natives => brings_finalize natives)) fun _ => .pure trivial
  · exact .pure trivial

end State

namespace RunConfig

/-- The text by which messages refer to the chunk of a name. -/
def identifier (name : String) : String := (Script.chunkId (.ofString name)).toText

/-- What the engine of a run fails with when it is asked to carry out a program. -/
def failure? (c : RunConfig) (name source : String) (w : World) : Option EngineError :=
  match (State.openState c.bridge).run w with
  | (.ok s, opened) =>
    let within := (Scope.operation s).enter (Scope.values.enter (Scope.values.enter opened))
    let task := Script.runTask s (.chunk (.ofString name) (.ofString source) [])
    match task.runTo (Action.nestingLimit - 1) within with
    | (.ok (.error failure), _) => some failure
    | _ => none
  | (.error _, _) => none

variable {c : RunConfig} {name source : String} {failure : EngineError} {w : World}

/-- A run in which the engine fails, fails with that, unless closing the state of the run does not come
to an end. -/
theorem run_runNamed_error (fails : c.failure? name source w = some failure) :
    ((c.runNamed name source).run w).1 = .error (.failed failure.toBridge) ∨
      ((c.runNamed name source).run w).1 = .error .exhausted := by
  unfold failure? at fails
  split at fails
  · rename_i s opened isOpened
    dsimp only at fails
    split at fails
    · rename_i e last answers
      cases fails
      obtain ⟨v, executed⟩ := State.runTo_executeNamed_error answers
      have attempted : (Action.attempt (c.runIn s name source)).runTo Action.nestingLimit opened = _ :=
        Action.runTo_attempt_error (Action.runTo_bind_error executed)
      have run : (c.runNamed name source).run w =
          (discard (State.close s) >>= fun _ => .throw failure.toBridge).runTo Action.nestingLimit
            (Scope.values.exit [] v) :=
        (Action.runTo_bind_ok isOpened).trans (Action.runTo_bind_ok attempted)
      rw [run]
      have closes : (discard (State.close s)).Brings fun _ => True :=
        .map (State.brings_close s) fun _ _ => trivial
      have brought := closes.of_ends (Ends.of_run _ (Scope.values.exit [] v))
      cases closed : (discard (State.close s)).run (Scope.values.exit [] v) with
      | mk result last =>
        rw [closed] at brought
        cases result with
        | ok =>
          left
          rw [Action.runTo_bind_ok closed, Action.runTo_throw]
        | error f =>
          cases show f = .exhausted from brought
          right
          rw [Action.runTo_bind_error closed]
    · cases fails
  · cases fails

/-- A run that fails with a message which the engine positioned tells the line of the position exactly if
no other number stands first between the colons of the chunk's identifier: the number there is the line
that is told. -/
theorem line_of_positioned {n : Nat} {rest : String}
    (fails : c.failure? name source w = some failure)
    (positioned : failure.toBridge.message = identifier name ++ ":" ++ toString n ++ ":" ++ rest) :
    ((RunResult.of w (c.runNamed name source)).outcome = .error (.script failure.toBridge) ∨
      ((c.runNamed name source).run w).1 = .error .exhausted) ∧
    let told := (RunError.script failure.toBridge).line
    (RunError.script failure.toBridge).report.line = told ∧
    told = reportable ((Text.digitsBetween? (identifier name).toList).elim n Numeral.decimalValue) ∧
    (told = some n ↔ n < 2 ^ 64 ∧
      ∀ digits ∈ Text.digitsBetween? (identifier name).toList, Numeral.decimalValue digits = n) := by
  have told : (RunError.script failure.toBridge).line =
      reportable ((Text.digitsBetween? (identifier name).toList).elim n Numeral.decimalValue) := by
    rw [RunError.line, positioned, lineOf_position]
  refine ⟨?_, rfl, told, ?_⟩
  · refine (run_runNamed_error fails).imp_left fun failed => ?_
    unfold RunResult.of
    generalize (c.runNamed name source).run w = ended at failed
    obtain ⟨result, last⟩ := ended
    cases failed
    rfl
  · rw [told, reportable_eq_some_iff]
    cases Text.digitsBetween? (identifier name).toList with
    | none => simp
    | some digits => simp +contextual

/-- A chunk that is named for the seventh job fails on its first line, and the seventh is told. -/
theorem line_of_positioned_job : ∃ failure rest,
    failure? { bridge := .bare } "=job:7:main" "error('boom')" {} = some failure ∧
    failure.toBridge.message = identifier "=job:7:main" ++ ":" ++ toString 1 ++ ":" ++ rest ∧
    (RunError.script failure.toBridge).line = some 7 := by
  have fails : failure? { bridge := .bare } "=job:7:main" "error('boom')" {} = some (.runtime
      "job:7:main:1: boom\nstack traceback:\n\tjob:7:main:1: in main chunk") := by decide +kernel
  have positioned : "job:7:main:1: boom\nstack traceback:\n\tjob:7:main:1: in main chunk" =
      identifier "=job:7:main" ++ ":" ++ toString 1 ++ ":" ++
        " boom\nstack traceback:\n\tjob:7:main:1: in main chunk" := by decide +kernel
  obtain ⟨-, -, told, -⟩ := line_of_positioned fails positioned
  exact ⟨_, _, fails, positioned, told.trans (by decide +kernel)⟩

end RunConfig

end ScriptBridge
