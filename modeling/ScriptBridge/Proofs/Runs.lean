import ScriptBridge.Program
import ScriptBridge.State.Basic

/-!
Runs of programs as a relation: all that may happen between the start of a program and a world at
which one looks. A run may be looked at before it ends, in the middle of a request just as well.
-/

namespace ScriptBridge

/-- What a program is about to do, and in which world. -/
inductive Moment where
  | op {β : Type} (o : Op β) (w : World)
  | request {β : Type} (r : Request β) (w : World)

namespace Moment

def world : Moment → World
  | .op _ w | .request _ w => w

end Moment

/-- The programs that may carry out a request, with the worlds in which they begin. What a running
script still holds is not part of a world, so an engine that collects may remove any of its
cells. -/
inductive Request.Begins : {β : Type} → Request β → World → Action β → World → Prop where
  | program {β : Type} (r : Request β) (w : World) : Begins r w r.program w
  | refused {β : Type} (r : Request β) (w : World) :
    Begins r w (.ofResult (Action.refuse r w).1) w
  | collected (s : StateId) (w : World) (kept : List Nat) :
    Begins (.collect s) w (.within .values (State.finalize (w.retain s kept).1))
      (w.retain s kept).2

/-- A request that does not let an engine collect begins with its program, or is refused. -/
theorem Request.Begins.plain {r : Request β} {w w₁ : World} {a : Action β}
    (begins : r.Begins w a w₁) (plain : match r with
      | .collect _ => False
      | _ => True) :
    w₁ = w ∧ (a = r.program ∨ a = .ofResult (Action.refuse r w).1) := by
  cases begins with
  | program => exact ⟨rfl, .inl rfl⟩
  | refused => exact ⟨rfl, .inr rfl⟩
  | collected => exact plain.elim

/-- A program that starts in a world has come to another one through some moments; the result is
there if the program has ended. -/
inductive Runs :
    {α : Type} → Action α → World → List Moment → Option (Except Fault α) → World → Prop where
  | stop {α : Type} (a : Action α) (w : World) : Runs a w [] none w
  | pure {α : Type} (a : α) (w : World) : Runs (.pure a) w [] (some (.ok a)) w
  | fail {α : Type} (f : Fault) (w : World) : Runs (α := α) (.fail f) w [] (some (.error f)) w
  | op {α β : Type} {o : Op β} {next : β → Action α} {w w' : World} {moments : List Moment}
      {outcome : Option (Except Fault α)}
      (rest : Runs (next (o.apply w).1) (o.apply w).2 moments outcome w') :
    Runs (.op o next) w (.op o w :: moments) outcome w'
  | requestStopped {α β : Type} {r : Request β} {next : β → Action α} {a : Action β}
      {w w₁ w' : World} {moments : List Moment} (begins : r.Begins w a w₁)
      (inner : Runs a w₁ moments none w') :
    Runs (.request r next) w (.request r w :: moments) none w'
  | requestFailed {α β : Type} {r : Request β} {next : β → Action α} {a : Action β}
      {w w₁ w' : World} {moments : List Moment} {f : Fault} (begins : r.Begins w a w₁)
      (inner : Runs a w₁ moments (some (.error f)) w') :
    Runs (.request r next) w (.request r w :: moments) (some (.error f)) w'
  | requestDone {α β : Type} {r : Request β} {next : β → Action α} {a : Action β} {b : β}
      {w w₁ w₂ w' : World} {moments later : List Moment} {outcome : Option (Except Fault α)}
      (begins : r.Begins w a w₁) (inner : Runs a w₁ moments (some (.ok b)) w₂)
      (rest : Runs (next b) w₂ later outcome w') :
    Runs (.request r next) w (.request r w :: (moments ++ later)) outcome w'
  | scopeStopped {α β : Type} {s : Scope} {held : β → List Handle} {body : Action β}
      {next : Except Fault β → Action α} {w w' : World} {moments : List Moment}
      (inner : Runs body (s.enter w) moments none w') :
    Runs (.scope s held body next) w moments none w'
  | scopeDone {α β : Type} {s : Scope} {held : β → List Handle} {body : Action β}
      {next : Except Fault β → Action α} {w w₁ w' : World} {moments later : List Moment}
      {result : Except Fault β} {outcome : Option (Except Fault α)}
      (inner : Runs body (s.enter w) moments (some result) w₁)
      (rest : Runs (next result) (s.exit (Scope.kept held result) w₁) later outcome w') :
    Runs (.scope s held body next) w (moments ++ later) outcome w'

namespace Action

theorem runs_ofResult (result : Except Fault α) (w : World) :
    Runs (.ofResult result) w [] (some result) w := by
  cases result with
  | ok a => exact .pure a w
  | error f => exact .fail f w

theorem refuse_world (r : Request β) (w : World) : (refuse r w).2 = w := by
  cases r <;> rfl

/-- What carries out requests as programs may do makes runs. -/
theorem runs_of_runWith {carryOut : {β : Type} → Request β → World → Except Fault β × World}
    (carries : ∀ {β : Type} (r : Request β) (w : World), ∃ a w₁ moments,
      r.Begins w a w₁ ∧ Runs a w₁ moments (some (carryOut r w).1) (carryOut r w).2)
    (a : Action α) (w : World) :
    ∃ moments, Runs a w moments (some (a.runWith carryOut w).1) (a.runWith carryOut w).2 := by
  induction a generalizing w with
  | pure a => exact ⟨[], .pure a w⟩
  | fail f => exact ⟨[], .fail f w⟩
  | op o next ih =>
    obtain ⟨moments, rest⟩ := ih (o.apply w).1 (o.apply w).2
    exact ⟨_, .op rest⟩
  | request r next ih =>
    obtain ⟨a, w₁, moments, begins, inner⟩ := carries r w
    simp only [runWith]
    split
    · rename_i b w₂ carried
      rw [carried] at inner
      obtain ⟨later, rest⟩ := ih b w₂
      exact ⟨_, .requestDone begins inner rest⟩
    · rename_i f w₂ carried
      rw [carried] at inner
      exact ⟨_, .requestFailed begins inner⟩
  | scope s held body next ihBody ihNext =>
    obtain ⟨moments, inner⟩ := ihBody (s.enter w)
    obtain ⟨later, rest⟩ := ihNext (body.runWith carryOut (s.enter w)).1
      (s.exit (Scope.kept held (body.runWith carryOut (s.enter w)).1)
        (body.runWith carryOut (s.enter w)).2)
    exact ⟨_, .scopeDone inner rest⟩

theorem runs_of_runTo (n : Nat) (a : Action α) (w : World) :
    ∃ moments, Runs a w moments (some (a.runTo n w).1) (a.runTo n w).2 := by
  induction n generalizing α w with
  | zero =>
    apply runs_of_runWith
    intro β r w
    refine ⟨_, w, [], .refused r w, ?_⟩
    rw [refuse_world]
    exact runs_ofResult _ w
  | succ n ih =>
    apply runs_of_runWith
    intro β r w
    obtain ⟨moments, inner⟩ := ih r.program w
    exact ⟨_, w, moments, .program r w, inner⟩

/-- What the program that runs does is a run. -/
theorem runs_of_run (a : Action α) (w : World) :
    ∃ moments, Runs a w moments (some (a.run w).1) (a.run w).2 :=
  runs_of_runTo nestingLimit a w

end Action

namespace Runs

variable {α β : Type} {w w' : World} {moments : List Moment}

/-- A sequence goes on after its first program, or has come no further than that program has. -/
theorem of_sequence {a : Action α} {f : α → Action β} {outcome : Option (Except Fault β)}
    (runs : Runs (a >>= f) w moments outcome w') :
    (∃ x w₁ first later, moments = first ++ later ∧ Runs a w first (some (.ok x)) w₁ ∧
      Runs (f x) w₁ later outcome w') ∨
    (outcome = none ∧ Runs a w moments none w') ∨
      ∃ e, outcome = some (.error e) ∧ Runs a w moments (some (.error e)) w' := by
  change Runs (a.bind f) w moments _ w' at runs
  induction a generalizing w moments with
  | pure a => exact .inl ⟨a, w, [], moments, rfl, .pure a w, runs⟩
  | fail e =>
    cases runs with
    | stop => exact .inr (.inl ⟨rfl, .stop _ _⟩)
    | fail => exact .inr (.inr ⟨e, rfl, .fail _ _⟩)
  | op o next ih =>
    cases runs with
    | stop => exact .inr (.inl ⟨rfl, .stop _ _⟩)
    | op rest =>
      rcases ih _ rest with ⟨x, w₁, first, later, rfl, inner, after⟩ | ⟨none, stopped⟩ |
        ⟨e, ended, failed⟩
      · exact .inl ⟨x, w₁, _, later, rfl, .op inner, after⟩
      · exact .inr (.inl ⟨none, .op stopped⟩)
      · exact .inr (.inr ⟨e, ended, .op failed⟩)
  | request r next ih =>
    cases runs with
    | stop => exact .inr (.inl ⟨rfl, .stop _ _⟩)
    | requestStopped begins inner => exact .inr (.inl ⟨rfl, .requestStopped begins inner⟩)
    | requestFailed begins inner => exact .inr (.inr ⟨_, rfl, .requestFailed begins inner⟩)
    | requestDone begins inner rest =>
      rcases ih _ rest with ⟨x, w₁, first, later, rfl, going, after⟩ | ⟨none, stopped⟩ |
        ⟨e, ended, failed⟩
      · exact .inl ⟨x, w₁, _, later, by simp, .requestDone begins inner going, after⟩
      · exact .inr (.inl ⟨none, .requestDone begins inner stopped⟩)
      · exact .inr (.inr ⟨e, ended, .requestDone begins inner failed⟩)
  | scope s held body next ihBody ihNext =>
    cases runs with
    | stop => exact .inr (.inl ⟨rfl, .stop _ _⟩)
    | scopeStopped inner => exact .inr (.inl ⟨rfl, .scopeStopped inner⟩)
    | scopeDone inner rest =>
      rcases ihNext _ rest with ⟨x, w₁, first, later, rfl, going, after⟩ | ⟨none, stopped⟩ |
        ⟨e, ended, failed⟩
      · exact .inl ⟨x, w₁, _, later, by simp, .scopeDone inner going, after⟩
      · exact .inr (.inl ⟨none, .scopeDone inner stopped⟩)
      · exact .inr (.inr ⟨e, ended, .scopeDone inner failed⟩)

/-- A sequence that has succeeded is made of two programs that have. -/
theorem of_bind {a : Action α} {f : α → Action β} {b : β}
    (runs : Runs (a >>= f) w moments (some (.ok b)) w') :
    ∃ x w₁ first later, moments = first ++ later ∧ Runs a w first (some (.ok x)) w₁ ∧
      Runs (f x) w₁ later (some (.ok b)) w' := by
  rcases runs.of_sequence with done | ⟨none, -⟩ | ⟨e, failed, -⟩
  · exact done
  · cases none
  · cases failed

/-- A sequence that has failed has done so in one of its programs. -/
theorem of_bind_error {a : Action α} {f : α → Action β} {e : Fault}
    (runs : Runs (a >>= f) w moments (some (.error e)) w') :
    Runs a w moments (some (.error e)) w' ∨
      ∃ x w₁ first later, moments = first ++ later ∧ Runs a w first (some (.ok x)) w₁ ∧
        Runs (f x) w₁ later (some (.error e)) w' := by
  rcases runs.of_sequence with after | ⟨none, -⟩ | ⟨e', same, failed⟩
  · exact .inr after
  · cases none
  · cases same
    exact .inl failed

/-- What follows a program that has succeeded makes a run of the sequence. -/
theorem sequence {a : Action α} {f : α → Action β} {outcome : Option (Except Fault β)} {x : α}
    {w₁ : World} {later : List Moment} (first : Runs a w moments (some (.ok x)) w₁)
    (rest : Runs (f x) w₁ later outcome w') : Runs (a >>= f) w (moments ++ later) outcome w' := by
  change Runs (a.bind f) w _ _ w'
  induction a generalizing w moments with
  | pure a =>
    cases first with
    | pure => exact rest
  | fail e => cases first
  | op o next ih =>
    cases first with
    | op going => exact .op (ih _ going rest)
  | request r next ih =>
    cases first with
    | requestDone begins inner going =>
      rw [List.cons_append, List.append_assoc]
      exact .requestDone begins inner (ih _ going rest)
  | scope s held body next ihBody ihNext =>
    cases first with
    | scopeDone inner going =>
      rw [List.append_assoc]
      exact .scopeDone inner (ihNext _ going rest)

/-- A program whose failure is a result can only be exhausted. -/
theorem of_attempt_error [Holding α] {body : Action α} {e : Fault}
    (runs : Runs (Action.attempt body) w moments (some (.error e)) w') : e = .exhausted := by
  cases runs with
  | scopeDone inner rest =>
    rename_i result
    rcases result with (_ | _) | _
    · cases rest
    · cases rest with
      | fail => rfl
    · cases rest

/-- A program that has ended has performed what it begins with. -/
theorem of_perform {o : Op α} {f : α → Action β} {result : Except Fault β}
    (runs : Runs (Action.perform o >>= f) w moments (some result) w') :
    ∃ later, moments = .op o w :: later ∧
      Runs (f (o.apply w).1) (o.apply w).2 later (some result) w' := by
  change Runs (.op o f) w moments _ w' at runs
  cases runs with
  | op rest => exact ⟨_, rfl, rest⟩

theorem of_pure {a : α} {result : Except Fault α}
    (runs : Runs (Pure.pure a) w moments (some result) w') :
    moments = [] ∧ result = .ok a ∧ w' = w := by
  change Runs (.pure a) w moments _ w' at runs
  cases runs with
  | pure => exact ⟨rfl, rfl, rfl⟩

/-- What is handed on is handed on without a moment. -/
theorem of_ofExcept {a : Except BridgeError α} {outcome : Option (Except Fault α)}
    (runs : Runs (.ofExcept a) w moments outcome w') :
    moments = [] ∧ w' = w ∧ ∀ result, outcome = some result → result = a.mapError .failed := by
  cases a <;> cases runs <;> refine ⟨rfl, rfl, fun _ returned => ?_⟩ <;> cases returned <;> rfl

theorem of_ofExcept_ok {a : Except BridgeError α} {x : α}
    (runs : Runs (.ofExcept a) w moments (some (.ok x)) w') : a = .ok x ∧ moments = [] ∧ w = w' := by
  obtain ⟨rfl, rfl, returned⟩ := runs.of_ofExcept
  cases a with
  | error e => cases returned _ rfl
  | ok y =>
    cases returned _ rfl
    exact ⟨rfl, rfl, rfl⟩

end Runs

end ScriptBridge
