import ScriptBridge.Proofs.Runs

/-!
Runs that can be computed: a program is run, and all that it is about to do is written down.
-/

namespace ScriptBridge

namespace Action

/-- Runs a program and writes down its moments; `carryOut` does so for the requests in it. -/
def traceWith
    (carryOut : {β : Type} → Request β → World → List Moment × Except Fault β × World) :
    {α : Type} → Action α → World → List Moment × Except Fault α × World
  | _, .pure a, w => ([], .ok a, w)
  | _, .fail f, w => ([], .error f, w)
  | _, .op o next, w =>
    let (b, w₁) := o.apply w
    let (later, ended) := traceWith carryOut (next b) w₁
    (.op o w :: later, ended)
  | _, .request r next, w =>
    match carryOut r w with
    | (moments, .ok b, w₁) =>
      let (later, ended) := traceWith carryOut (next b) w₁
      (.request r w :: (moments ++ later), ended)
    | (moments, .error f, w₁) => (.request r w :: moments, .error f, w₁)
  | _, .scope s held body next, w =>
    let (moments, result, w₁) := traceWith carryOut body (s.enter w)
    let (later, ended) := traceWith carryOut (next result) (s.exit (Scope.kept held result) w₁)
    (moments ++ later, ended)

/-- Runs a program whose requests are nested to at most `n`, and writes down its moments. -/
def trace : Nat → {α : Type} → Action α → World → List Moment × Except Fault α × World
  | 0, _, a, w => traceWith (fun r w => ([], refuse r w)) a w
  | n + 1, _, a, w => traceWith (fun r w => trace n r.program w) a w

theorem runs_of_traceWith
    {carryOut : {β : Type} → Request β → World → List Moment × Except Fault β × World}
    (carries : ∀ {β : Type} (r : Request β) (w : World), ∃ a w₁, r.Begins w a w₁ ∧
      Runs a w₁ (carryOut r w).1 (some (carryOut r w).2.1) (carryOut r w).2.2)
    (a : Action α) (w : World) :
    Runs a w (a.traceWith carryOut w).1 (some (a.traceWith carryOut w).2.1)
      (a.traceWith carryOut w).2.2 := by
  induction a generalizing w with
  | pure a => exact .pure a w
  | fail f => exact .fail f w
  | op o next ih => exact .op (ih (o.apply w).1 (o.apply w).2)
  | request r next ih =>
    obtain ⟨a, w₁, begins, inner⟩ := carries r w
    simp only [traceWith]
    split
    · rename_i moments b w₂ carried
      rw [carried] at inner
      exact .requestDone begins inner (ih b w₂)
    · rename_i moments f w₂ carried
      rw [carried] at inner
      exact .requestFailed begins inner
  | scope s held body next ihBody ihNext => exact .scopeDone (ihBody (s.enter w)) (ihNext _ _)

/-- What has been written down is a run. -/
theorem runs_of_trace (n : Nat) (a : Action α) (w : World) :
    Runs a w (a.trace n w).1 (some (a.trace n w).2.1) (a.trace n w).2.2 := by
  induction n generalizing α w with
  | zero =>
    refine runs_of_traceWith (fun r w => ⟨_, w, .refused r w, ?_⟩) a w
    rw [refuse_world]
    exact runs_ofResult _ w
  | succ n ih => exact runs_of_traceWith (fun r w => ⟨_, w, .program r w, ih r.program w⟩) a w

/-- What is written down of a program changes nothing about its run. -/
theorem traceWith_snd {carry : {β : Type} → Request β → World → List Moment × Except Fault β × World}
    {carryOut : {β : Type} → Request β → World → Except Fault β × World}
    (same : ∀ {β : Type} (r : Request β) (w : World), (carry r w).2 = carryOut r w)
    (a : Action α) (w : World) : (a.traceWith carry w).2 = a.runWith carryOut w := by
  induction a generalizing w with
  | pure | fail => rfl
  | op o next ih => exact ih _ _
  | request r next ih =>
    simp only [traceWith, runWith, ← same]
    split
    · rename_i moments b w₁ carried
      simp only [carried, ih]
    · rename_i moments f w₁ carried
      simp only [carried]
  | scope s held body next ihBody ihNext => simp only [traceWith, runWith, ← ihBody, ihNext]

theorem trace_snd (n : Nat) (a : Action α) (w : World) : (a.trace n w).2 = a.runTo n w := by
  induction n generalizing α w with
  | zero => exact traceWith_snd (fun _ _ => rfl) a w
  | succ n ih => exact traceWith_snd (fun r w => ih r.program w) a w

/-- The moments of a sequence are those of its first program, and then those of what follows it. -/
theorem traceWith_bind {carry : {β : Type} → Request β → World → List Moment × Except Fault β × World}
    (a : Action α) (f : α → Action β) (w : World) :
    (a >>= f).traceWith carry w =
      match a.traceWith carry w with
      | (moments, .ok x, w₁) =>
        (moments ++ ((f x).traceWith carry w₁).1, ((f x).traceWith carry w₁).2)
      | (moments, .error e, w₁) => (moments, .error e, w₁) := by
  change (a.bind f).traceWith carry w = _
  induction a generalizing w with
  | pure | fail => rfl
  | op o next ih =>
    simp only [Action.bind, traceWith, ih]
    split <;> simp_all
  | request r next ih =>
    simp only [Action.bind, traceWith]
    split
    · simp only [ih]
      split <;> simp_all
    · rfl
  | scope s held body next _ ih =>
    simp only [Action.bind, traceWith, ih]
    split <;> simp_all

theorem trace_bind (n : Nat) (a : Action α) (f : α → Action β) (w : World) :
    (a >>= f).trace n w =
      match a.trace n w with
      | (moments, .ok x, w₁) => (moments ++ ((f x).trace n w₁).1, ((f x).trace n w₁).2)
      | (moments, .error e, w₁) => (moments, .error e, w₁) := by
  cases n <;> exact traceWith_bind a f w

/-- The moments of a scope are those of its body, and then those of what follows it. -/
theorem trace_scope (n : Nat) (s : Scope) (held : β → List Handle) (body : Action β)
    (next : Except Fault β → Action α) (w : World) :
    ((Action.scope s held body next).trace n w).1 =
      (body.trace n (s.enter w)).1 ++ ((next (body.runTo n (s.enter w)).1).trace n
        (s.exit (Scope.kept held (body.runTo n (s.enter w)).1) (body.runTo n (s.enter w)).2)).1 := by
  rw [← trace_snd]
  cases n <;> rfl

end Action

end ScriptBridge
