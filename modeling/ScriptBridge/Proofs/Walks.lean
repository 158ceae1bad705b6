import ScriptBridge.Proofs.Beside
import ScriptBridge.Proofs.Computed
import ScriptBridge.Proofs.Nesting

/-!
Stretches of a script in which only the engine itself is at work: a machine that performs nothing
but elementary operations has one way to go.
-/

namespace ScriptBridge

open Script (Callee CallForm CallbackResult Cell Closure Control Datum Env Expr Kont Machine Next
  Outcome Site Stmt Use)

namespace Script.Machine

variable {m m₁ m' : Machine} {w w₁ w' : World}

/-- A machine gets to another one by elementary operations, in a number of steps. -/
inductive Walks : Nat → Machine → World → Machine → World → Prop where
  | here (m : Machine) (w : World) : Walks 0 m w m w
  | step {n : Nat} {m m₁ m' : Machine} {w w₁ w' : World}
    (first : m.step.straight w = some (.continue m₁, w₁)) (rest : Walks n m₁ w₁ m' w') :
    Walks (n + 1) m w m' w'

theorem Walks.one (first : m.step.straight w = some (.continue m', w')) : Walks 1 m w m' w' :=
  .step first (.here m' w')

theorem Walks.of_step {a : Action Machine} (does : m.step = .continue <$> a)
    (goes : a.straight w = some (m', w')) : Walks 1 m w m' w' :=
  .one (by rw [does, Action.straight_map, goes]; rfl)

theorem Walks.trans {n k : Nat} (first : Walks n m w m₁ w₁) (second : Walks k m₁ w₁ m' w') :
    Walks (n + k) m w m' w' := by
  induction first with
  | here => rwa [Nat.zero_add]
  | @step n _ _ _ _ _ _ step _ ih =>
    rw [Nat.add_right_comm]
    exact .step step (ih second)

/-- A machine comes to what the one comes to that it gets to. -/
theorem Walks.becomes {n : Nat} (walks : Walks n m w m' w') (k : Nat) :
    (m.run (n + k)).Becomes w (m'.run k) w' := by
  induction walks with
  | here =>
    rw [Nat.zero_add]
    exact .refl ..
  | @step n _ _ _ _ _ _ first _ ih =>
    rw [Nat.add_right_comm]
    exact (Action.Becomes.bind first _).trans ih

theorem Walks.straight_run {n : Nat} (walks : Walks n m w m' w') (k : Nat) :
    (m.run (n + k)).straight w = (m'.run k).straight w' := by
  induction walks with
  | here => rw [Nat.zero_add]
  | @step n _ _ _ _ _ _ first _ ih =>
    rw [Nat.add_right_comm, ← ih]
    change (_ >>= _ : Action Outcome).straight _ = _
    rw [Action.straight_bind, first]
    rfl

/-- A failure that nothing catches in a task that no coroutine waits for. -/
theorem straight_raise {err : EngineError} {site : Option Site} {k : Nat}
    (raises : m.control = .raise (.failure err) site) (spared : ∀ c ∈ m.konts, c.catches = false)
    (alone : m.callers = []) (entered : m.isResumed = false) :
    (m.run (k + 1)).straight w = some (.error err, w) := by
  have uncaught : m.Uncaught := ⟨spared, fun c member => by simp [alone] at member⟩
  have stepping : m.step = pure (.done (.error err)) := by
    unfold step
    rw [raises]
    dsimp only
    rw [catchFailure_of_uncaught uncaught, Machine.uncaught, alone]
    simp [endTask, entered]
  change (_ >>= _ : Action Outcome).straight _ = _
  rw [stepping]
  rfl

end Script.Machine

namespace World

/-- A variable of a piece of code has a value. -/
def Reads (w : World) (env : Env) (name : String) (value : Datum) : Prop :=
  ∃ r, env.ref? name = some r ∧ w.cell? r = some (.variable value)

theorem Mirrors.reads {w w' : World} (mirrors : w.Mirrors w') {env : Env} {name : String}
    {value : Datum} (reads : w.Reads env name value) : w'.Reads env name value := by
  obtain ⟨r, ref, found⟩ := reads
  exact ⟨r, ref, mirrors.cell? found (by simp)⟩

end World

namespace Script.Machine

variable {m : Machine} {w : World}

/-- New variables have the values that they are declared with. -/
theorem straight_declare (isOpen : w.isOpen m.state) {names : List String} (distinct : names.Nodup)
    (env : Env) (values : List Datum) :
    ∃ env' w', (m.declare env names values).straight w = some (env', w') ∧ w.Beside m.thread w' ∧
      env'.varargs = env.varargs ∧ env'.chunk = env.chunk ∧
      (∀ name ∉ names, env'.ref? name = env.ref? name) ∧
      ∀ entry ∈ names.zip values, w'.Reads env' entry.1 entry.2 := by
  induction names generalizing env values w with
  | nil => exact ⟨env, w, rfl, .refl _ w, rfl, rfl, fun _ _ => rfl, by simp⟩
  | cons name names ih =>
    obtain ⟨fresh, distinct⟩ := List.nodup_cons.mp distinct
    let cell : Cell := .variable (values.headD .nil)
    let r := (w.allocate m.state cell).1
    have made : w.Beside m.thread (w.allocate m.state cell).2 := .allocate w isOpen _
    have placed : (w.allocate m.state cell).2.cell? r = some cell := World.cell?_allocate isOpen cell
    obtain ⟨env', w', goes, beside, varargs, chunk, others, reads⟩ :=
      ih (by rwa [made.mirrors.isOpen]) distinct { env with vars := (name, r) :: env.vars } (values.drop 1)
    refine ⟨env', w', goes, made.trans beside, varargs, chunk, fun other absent => ?_, ?_⟩
    · obtain ⟨differs, absent⟩ := not_or.mp (mt List.mem_cons.mpr absent)
      rw [others other absent]
      simp [Env.ref?, Ne.symm differs]
    · intro entry member
      cases values with
      | nil => simp at member
      | cons value values =>
        rcases List.mem_cons.mp member with rfl | member
        · exact ⟨r, by rw [others name fresh]; simp [Env.ref?],
            beside.mirrors.cell? placed (by simp)⟩
        · exact reads entry member

/-- To call a function of scripts is to run its body with its parameters declared. -/
theorem walks_call {r : Ref} {c : Closure} (isOpen : w.isOpen m.state)
    (closure : w.cell? r = some (.closure c)) (distinct : c.body.params.Nodup) {args : List Datum}
    {form : CallForm} (calls : m.control = .call (.datum (.function r)) args form)
    (plain : form.isTail = false) :
    ∃ env w' title, Walks 1 m w
      { m with
        control := .execute c.body.body env
        konts := .activation form.site title :: m.konts } w' ∧
      w.Beside m.thread w' ∧ env.varargs = args.drop c.body.params.length ∧
      (∀ name ∉ c.body.params, env.ref? name = Env.ref? ⟨c.vars, [], []⟩ name) ∧
      ∀ entry ∈ c.body.params.zip args, w'.Reads env entry.1 entry.2 := by
  obtain ⟨env, w', goes, beside, varargs, -, outer, reads⟩ := straight_declare isOpen distinct
    { vars := c.vars, varargs := args.drop c.body.params.length, chunk := c.chunk } args
  refine ⟨env, w', ?title, .one ?step, beside, varargs, outer, reads⟩
  case step =>
    unfold step
    rw [calls]
    simp only [Action.straight_map, enterCall, Action.straight_bind, Action.straight_view, closure,
      Option.bind_some, enter, goes, plain]
    rfl

/-- A variable is evaluated by looking at it. -/
theorem walks_variable {name : String} {outer : Bool} {env : Env} {value : Datum}
    (evaluates : m.control = .evaluate (.var name outer) env) (reads : w.Reads env name value) :
    Walks 1 m w (m.give [value]) w := by
  obtain ⟨r, ref, found⟩ := reads
  refine .one ?_
  unfold step
  rw [evaluates]
  simp only [Action.straight_map, evaluateExpr, ref, Action.straight_bind, variableAt,
    Action.straight_view, found, Option.bind_some, Action.straight_pure, Option.map_some]

end Script.Machine

end ScriptBridge
