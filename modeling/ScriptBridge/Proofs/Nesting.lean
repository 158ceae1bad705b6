import Mathlib.Data.List.TakeWhile
import ScriptBridge.Proofs.Session
import ScriptBridge.Proofs.Straight

/-!
Failures on their way out: through scopes and tags of native code, and through the frames of scripts,
from the native function that raised them to the outermost one that waits.
-/

namespace ScriptBridge

open Script (Datum Machine Outcome Next Kont Reserve CallForm CallbackResult updateThread)

namespace EngineError

/-- A failure of the engine with any number of wrappers around it. -/
inductive Tower (core : EngineError) : EngineError → Prop where
  | base : Tower core core
  | callback (trace : String) {cause : EngineError} (inner : Tower core cause) :
    Tower core (.callback trace cause)
  | context (message : String) {cause : EngineError} (inner : Tower core cause) :
    Tower core (.context message cause)

theorem Tower.bridge? {e : BridgeError} {err : EngineError} (tower : Tower (.bridge e) err) :
    err.bridge? = some e := by
  induction tower with
  | base => rfl
  | callback trace _ ih => exact ih
  | context message _ ih => exact ih

theorem Tower.of_bridge? {err : EngineError} {e : BridgeError} (found : err.bridge? = some e) :
    Tower (.bridge e) err := by
  induction err with
  | bridge e' => exact Option.some.inj found ▸ .base
  | callback trace cause ih => exact .callback trace (ih found)
  | context message cause ih => exact .context message (ih found)
  | _ => cases found

/-- A bridge failure comes out of any tower as it is. -/
theorem Tower.toBridge {e : BridgeError} {err : EngineError} (tower : Tower (.bridge e) err) :
    err.toBridge = e := by
  simp [EngineError.toBridge, tower.bridge?]

/-- A tower around anything else comes out as a failure of the engine. -/
theorem toBridge_foreign {err : EngineError} (foreign : ∀ e, ¬ Tower (.bridge e) err) :
    err.toBridge.kind = .engineRuntime ∧
      ((∃ m, err = .syntaxError m) → err.toBridge.tag = some "engine.syntax") ∧
      ((∀ m, err ≠ .syntaxError m) → err.toBridge.tag = some "engine.runtime") := by
  have none : err.bridge? = none := by
    cases found : err.bridge? with
    | none => rfl
    | some e => exact absurd (Tower.of_bridge? found) (foreign e)
  unfold EngineError.toBridge
  rw [none]
  cases err <;> simp

end EngineError

namespace Script.Machine

variable {m m' : Machine} {w w' : World}

/-- A machine gets to another one in a number of steps. -/
inductive Goes : Nat → Machine → World → Machine → World → Prop where
  | here (m : Machine) (w : World) : Goes 0 m w m w
  | step {n : Nat} {m m₁ m₂ : Machine} {w w₁ w₂ : World} (first : Ends m.step w (.ok (.continue m₁)) w₁)
    (rest : Goes n m₁ w₁ m₂ w₂) : Goes (n + 1) m w m₂ w₂

/-- A machine that goes on ends as the one that it gets to. -/
theorem Goes.run {n k : Nat} (goes : Goes n m w m' w') {result : Except Fault Outcome} {w₂ : World}
    (ends : Ends (m'.run k) w' result w₂) : Ends (m.run (n + k)) w result w₂ := by
  induction goes with
  | here m w => rwa [Nat.zero_add]
  | @step n m m₁ m₂ w w₁ w₂ first rest ih =>
    rw [Nat.add_right_comm]
    exact Ends.then_ok first (ih ends)

/-- The machine that one gets to in a number of steps, if the task has not ended before. -/
def advance : Nat → Machine → World → Option (Machine × World)
  | 0, m, w => some (m, w)
  | n + 1, m, w =>
    match m.step.run w with
    | (.ok (.continue m'), w') => advance n m' w'
    | _ => none

theorem goes_of_advance {n : Nat} (advances : m.advance n w = some (m', w')) :
    Goes n m w m' w' := by
  induction n generalizing m w with
  | zero =>
    cases advances
    exact .here _ _
  | succ n ih =>
    unfold advance at advances
    split at advances
    · rename_i m₁ w₁ ran
      have first := Ends.of_run m.step w
      rw [ran] at first
      exact .step first (ih advances)
    · cases advances

/-- Whether no script code on the way out stops a failure: no frame catches it, and whoever waits for
a coroutine hands its failures on. -/
structure Uncaught (m : Machine) : Prop where
  inside : ∀ k ∈ m.konts, k.catches = false
  outside : ∀ c ∈ m.callers, ∃ site rest, c.2 = .resumed true site :: rest ∧
    ∀ k ∈ rest, k.catches = false

theorem catchFailure_of_uncaught (uncaught : m.Uncaught) (e : Datum) (site : Option Site) :
    m.catchFailure e site = m.uncaught e site := by
  have none : m.konts.dropWhile (!·.catches) = [] := by
    rw [List.dropWhile_eq_nil_iff]
    simpa using uncaught.inside
  unfold catchFailure
  rw [none]

theorem ends_handOver {progress : Progress} {caller : Ref} {konts : List Kont}
    {callers : List (Ref × List Kont)} {result : Except Fault Machine}
    (ends : Ends (m.handOver progress caller konts callers) w result w') :
    result = .ok { m with thread := caller, konts := konts, callers := callers } := by
  unfold handOver at ends
  obtain ⟨_, _, -, rest⟩ | ⟨_, -, failed⟩ := Ends.bind_iff.mp ends
  · obtain ⟨_, _, -, rest⟩ | ⟨_, -, failed⟩ := Ends.bind_iff.mp rest
    · rw [Ends.perform_bind_iff, Ends.pure_iff] at rest
      exact rest.1
    · simp [Ends.updateThread_iff] at failed
  · simp [Ends.updateThread_iff] at failed

theorem ends_endTask {progress : Progress} {outcome : Outcome} {result : Except Fault Next}
    (ends : Ends (m.endTask progress outcome) w result w') : result = .ok (.done outcome) := by
  unfold endTask at ends
  split at ends
  · obtain ⟨_, _, -, rest⟩ | ⟨_, -, failed⟩ := Ends.bind_iff.mp ends
    · exact (Ends.pure_iff.mp rest).1
    · simp [Ends.updateThread_iff] at failed
  · exact (Ends.pure_iff.mp ends).1

/-- What a step makes of a failure that script code does not stop: the end of the task, or the same
failure in the coroutine that waits. -/
theorem ends_uncaught {err : EngineError} {site : Option Site} (uncaught : m.Uncaught)
    {result : Except Fault Next} (ends : Ends (m.uncaught (.failure err) site) w result w') :
    result = .ok (.done (.error err)) ∨
      ∃ m' site', result = .ok (.continue m') ∧ m'.Uncaught ∧
        m'.control = .raise (.failure err) site' ∧ m'.callers.length < m.callers.length := by
  unfold Machine.uncaught at ends
  split at ends
  · rename_i caller konts callers waiting
    right
    obtain ⟨site', rest, same, spared⟩ := uncaught.outside (caller, konts) (by simp [waiting])
    dsimp only at same
    subst same
    obtain ⟨m₁, _, handed, rest⟩ | ⟨_, -, failed⟩ := Ends.bind_iff.mp ends
    · cases ends_handOver handed
      refine ⟨_, site', (Ends.pure_iff.mp rest).1, ⟨spared, fun c member => ?_⟩, rfl, ?_⟩
      · exact uncaught.outside c (waiting ▸ List.mem_cons_of_mem _ member)
      · rw [waiting]
        exact Nat.lt_succ_self _
    · cases ends_handOver failed
  · exact .inl (ends_endTask ends)

/-- A failure that script code does not stop is how the task of the machine ends. It takes one step
for each coroutine. -/
theorem run_uncaught {err : EngineError} {site : Option Site} {k : Nat} (uncaught : m.Uncaught)
    (raises : m.control = .raise (.failure err) site) {result : Except Fault Outcome}
    (ends : Ends (m.run k) w result w')
    (inTime : m.callers.length < k ∨ result ≠ .error .exhausted) :
    result = .ok (.error err) := by
  induction k generalizing m w site with
  | zero => exact absurd (Ends.fail_iff.mp ends).1 (inTime.resolve_left (Nat.not_lt_zero _))
  | succ k ih =>
    have stepping : m.step = m.uncaught (.failure err) site := by
      unfold step
      rw [raises]
      exact catchFailure_of_uncaught uncaught _ _
    obtain ⟨next, w₁, first, rest⟩ | ⟨f, rfl, failed⟩ := Ends.bind_iff.mp ends
    · rw [stepping] at first
      rcases ends_uncaught uncaught first with done | ⟨m', site', going, uncaught', raises', fewer⟩
      · cases done
        exact (Ends.pure_iff.mp rest).1
      · cases going
        exact ih uncaught' raises' rest (inTime.imp_left fun _ => by omega)
    · rw [stepping] at failed
      rcases ends_uncaught uncaught failed with done | ⟨_, _, going, -⟩
      · cases done
      · cases going

/-- What a machine calls is native code: a function of the host's side, or a metamethod of native
objects. -/
inductive CallsNative (m : Machine) (w : World) : CallForm → Action CallbackResult → Prop where
  | host {r : Ref} {h : HostFunction} {args : List Datum} {form : CallForm}
    (calls : m.control = .call (.datum (.function r)) args form)
    (found : w.cell? r = some (.builtin (.host h))) :
    CallsNative m w form (runHost m.state h args)
  | member {event : NativeEvent} {args : List Datum} {form : CallForm}
    (calls : m.control = .call (.member event) args form) :
    CallsNative m w form (runMember m.state event args)
  | memberFunction {r : Ref} {event : NativeEvent} {args : List Datum} {form : CallForm}
    (calls : m.control = .call (.datum (.function r)) args form)
    (found : w.cell? r = some (.builtin (.member event))) :
    CallsNative m w form (runMember m.state event args)

/-- A step that calls native code. -/
theorem CallsNative.step_iff {form : CallForm} {body : Action CallbackResult}
    (calls : m.CallsNative w form body) {result : Except Fault Next} :
    Ends m.step w result w' ↔ Ends (Next.continue <$> m.callNative form body) w result w' := by
  have entered {f : Callee} {args : List Datum} (control : m.control = .call f args form)
      (same : ∀ result, Ends (m.enterCall f args form) w result w' ↔
        Ends (m.callNative form body) w result w') :
      Ends m.step w result w' ↔ Ends (Next.continue <$> m.callNative form body) w result w' := by
    unfold Machine.step
    rw [control]
    simp only [Ends.map_iff, same]
  cases calls with
  | member calls => exact entered calls fun _ => Iff.rfl
  | host calls found | memberFunction calls found =>
    refine entered calls fun _ => ?_
    unfold enterCall
    rw [Ends.view_bind_iff]
    dsimp only
    rw [found]

theorem CallsNative.step {form : CallForm} {body : Action CallbackResult}
    (calls : m.CallsNative w form body)
    (ends : Ends (m.callNative form body) w (.ok m') w') :
    Ends m.step w (.ok (.continue m')) w' :=
  calls.step_iff.mpr (Ends.map_iff.mpr ⟨.ok m', ends, rfl⟩)

/-- The stack from a native function on. -/
def nativeLines (m : Machine) (w : World) (form : CallForm) : List String :=
  let title := Described.title form.callee "?"
  s!"[C]: in {title}" :: m.traceLines w form.site

/-- The world in which a native function that has been called begins. -/
def enterNative (m : Machine) (w : World) (form : CallForm) : World :=
  let (pooled, w') := w.takePlace m.state
  Scope.values.enter <| w'.changeThread m.thread fun t =>
    { t with waiting := ⟨if pooled then .pooled else .stacked, m.nativeLines w form⟩ :: t.waiting }

/-- Whether the native function that has been called still has a place for its failure. -/
def KeepsPlace (m : Machine) (w : World) : Prop :=
  ((w.thread? m.thread).bind (·.waiting.head?)).map (·.reserve) ≠ some .lost

/-- What the native function that waits has kept for its failure. -/
def reserve (m : Machine) (w : World) : Reserve :=
  (((w.thread? m.thread).bind (·.waiting.head?)).map (·.reserve)).getD .pooled

/-- What a native function that fails with a cause fails with. -/
def cause (m : Machine) (w : World) (e : EngineError) : EngineError :=
  if m.reserve w = .lost then .external "userdata is not expected type" else e

theorem KeepsPlace.cause (kept : m.KeepsPlace w) (e : EngineError) : m.cause w e = e := by
  refine if_neg ?_
  unfold KeepsPlace at kept
  unfold Machine.reserve
  cases found : ((w.thread? m.thread).bind (·.waiting.head?)).map (·.reserve) with
  | none => simp
  | some reserve => simpa [found] using kept

/-- The world after a native function has failed. -/
def leaveNative (m : Machine) (w : World) : World :=
  (Scope.values.exit [] w).changeThread m.thread fun t => { t with waiting := t.waiting.drop 1 }

/-- A native function that has just been called has a place. -/
theorem keepsPlace_enterNative (m : Machine) (w : World) (form : CallForm) :
    m.KeepsPlace (Scope.values.exit [] (m.enterNative w form)) := by
  unfold KeepsPlace enterNative
  rw [(World.Alike.exit .values [] _).thread?, (World.Alike.enter .values _).thread?,
    World.thread?_changeThread, if_pos rfl]
  cases (w.takePlace m.state).2.thread? m.thread with
  | none => simp
  | some t => cases (w.takePlace m.state).1 <;> simp

/-- The failure of native code as script code sees it. -/
def callbackFailure (m : Machine) (w : World) (form : CallForm) (e : BridgeError) : EngineError :=
  .callback (traceText (m.nativeLines w form)) (.bridge e)

/-- The world in which a native function no longer waits. -/
def popWaiting (m : Machine) (w : World) : World :=
  w.changeThread m.thread fun t => { t with waiting := t.waiting.drop 1 }

/-- What a script gets from native code that it has called, and the world in which it gets it. -/
def receive (m : Machine) (before : World) (form : CallForm) (inner : Except Fault CallbackResult)
    (w : World) : Except Fault CallbackResult × World :=
  let left := Scope.values.exit (Scope.kept handles inner) w
  let wrapped (e : EngineError) : EngineError :=
    .callback (traceText (m.nativeLines before form)) (m.cause left e)
  match inner with
  | .ok (.ok data) => (.ok (.ok data), ((Op.givePlace m.state).apply (m.popWaiting left)).2)
  | .ok (.error e) => (.ok (.error (wrapped e)), m.popWaiting left)
  | .error (.failed e) => (.ok (.error (wrapped (.bridge e))), m.popWaiting left)
  | .error .exhausted => (.error .exhausted, left)

/-- How a script goes on with what it gets from native code. -/
def goOn (m : Machine) (form : CallForm) : CallbackResult → Machine
  | .ok data => m.give data
  | .error e => m.raise (.failure e) form.site

/-- Native code that a script calls runs once, and the script goes on with what it gets. -/
theorem callNative_iff {form : CallForm} {body : Action CallbackResult}
    {result : Except Fault Machine} :
    Ends (m.callNative form body) w result w' ↔ ∃ inner w₀,
      Ends body (m.enterNative w form) inner w₀ ∧
        (result, w') = (m.receive w form inner w₀).map (·.map (m.goOn form)) id := by
  unfold callNative withPlace
  rw [Ends.view_bind_iff]
  simp only [bind_assoc]
  rw [Ends.perform_bind_iff, Ends.straight_bind_iff (Action.straight_updateThread ..), Ends.bind_iff]
  simp only [Ends.attempt_iff, Ends.view_bind_iff,
    Ends.straight_bind_iff (Action.straight_updateThread ..), pure_bind]
  constructor
  · rintro (⟨_, _, ⟨inner, w₀, body, same, rfl⟩, rest⟩ | ⟨_, rfl, inner, w₀, body, same, rfl⟩) <;>
      refine ⟨inner, w₀, body, ?_⟩ <;> rcases inner with (_ | _) | _ | _ <;> cases same
    · exact Prod.ext_iff.mpr (Ends.pure_iff.mp rest)
    · exact Prod.ext_iff.mpr (Ends.pure_iff.mp rest)
    · exact Prod.ext_iff.mpr (Ends.pure_iff.mp (Ends.perform_bind_iff.mp rest))
    · rfl
  · rintro ⟨inner, w₀, body, same⟩
    obtain ⟨same, left⟩ := Prod.ext_iff.mp same
    rcases inner with (e | _) | _ | data
    · exact .inl ⟨_, _, ⟨_, w₀, body, rfl, rfl⟩, Ends.pure_iff.mpr ⟨same, left⟩⟩
    · exact .inr ⟨_, same, _, w₀, body, rfl, left⟩
    · exact .inl ⟨_, _, ⟨_, w₀, body, rfl, rfl⟩, Ends.pure_iff.mpr ⟨same, left⟩⟩
    · exact .inl ⟨_, _, ⟨_, w₀, body, rfl, rfl⟩,
        Ends.perform_bind_iff.mpr (Ends.pure_iff.mpr ⟨same, left⟩)⟩

/-- A native function that fails makes the script that has called it fail. -/
theorem ends_callNative {form : CallForm} {body : Action CallbackResult} {e : BridgeError}
    (failed : Ends body (m.enterNative w form) (.error (.failed e)) w')
    (kept : m.KeepsPlace (Scope.values.exit [] w')) :
    Ends (m.callNative form body) w
      (.ok (m.raise (.failure (m.callbackFailure w form e)) form.site)) (m.leaveNative w') := by
  refine callNative_iff.mpr ⟨_, w', failed, ?_⟩
  simp only [receive, Scope.kept, kept.cause]
  rfl

end Script.Machine

/-- The engine of a state does a task by running a machine to its end; `after` is what it still does
to the world then. -/
def Starts (s : StateId) (task : Task) (w : World) (m : Machine) (w₁ : World)
    (after : World → World) : Prop :=
  ∀ outcome w₂, Ends (m.run Script.stepLimit) w₁ (.ok outcome) w₂ →
    Ends (Script.runTask s task) w (.ok outcome) (after w₂)

/-- Native code of the bridge, a script that it calls, native code that the script calls, and so on
to any depth, down to where a failure is raised that everyone on its way out hands on. The second
failure is the one that comes out. -/
inductive Surfaces (e : BridgeError) :
    {α : Type} → Action α → World → BridgeError → World → Prop where
  | raised {α : Type} {a : Action α} {w w' : World} (ends : Ends a w (.error (.failed e)) w') :
    Surfaces e a w e w'
  | first {α β : Type} {a : Action α} {f : α → Action β} {w w' : World} {e' : BridgeError}
    (inner : Surfaces e a w e' w') : Surfaces e (a >>= f) w e' w'
  | later {α β : Type} {a : Action α} {f : α → Action β} {x : α} {w w₁ w' : World}
    {e' : BridgeError} (before : Ends a w (.ok x) w₁) (inner : Surfaces e (f x) w₁ e' w') :
    Surfaces e (a >>= f) w e' w'
  | within {α : Type} [Holding α] {s : Scope} {body : Action α} {w w' : World} {e' : BridgeError}
    (inner : Surfaces e body (s.enter w) e' w') :
    Surfaces e (.within s body) w e' (s.exit [] w')
  | tagged {α : Type} [Holding α] {tag : String} {body : Action α} {w w' : World}
    {e' : BridgeError} (inner : Surfaces e body (Scope.values.enter w) e' w') :
    Surfaces e (.tagged tag body) w (e'.withTag tag) (Scope.values.exit [] w')
  /-- Native code catches the failure and fails with it in the end. -/
  | rethrown {α β : Type} [Holding α] {body : Action α} {f : Except BridgeError α → Action β}
    {w w₁ w' : World} {e' : BridgeError} (inner : Surfaces e body (Scope.values.enter w) e' w₁)
    (hands : Ends (f (.error e')) (Scope.values.exit [] w₁) (.error (.failed e')) w') :
    Surfaces e (.attempt body >>= f) w e' w'
  /-- The engine runs a script that calls native code from which the failure comes. Script code may
  catch it and raise it again, and do anything in between. -/
  | script {s : StateId} {task : Task} {m m₁ m₂ : Machine} {w w₁ w₂ w₃ w₄ w₅ : World}
    {after : World → World} {form : CallForm} {body : Action CallbackResult} {e' : BridgeError}
    {site : Option Script.Site} {n k rest : Nat} {result : Except Fault Outcome}
    (starts : Starts s task w m w₁ after) (goes : m.Goes n w₁ m₁ w₂)
    (calls : m₁.CallsNative w₂ form body)
    (inner : Surfaces e body (m₁.enterNative w₂ form) e' w₃)
    (place : m₁.KeepsPlace (Scope.values.exit [] w₃))
    (onward : (m₁.raise (.failure (m₁.callbackFailure w₂ form e')) form.site).Goes k
      (m₁.leaveNative w₃) m₂ w₄)
    (again : m₂.control = .raise (.failure (m₁.callbackFailure w₂ form e')) site)
    (uncaught : m₂.Uncaught) (ends : Ends (m₂.run rest) w₄ result w₅)
    (inTime : result ≠ .error .exhausted) (steps : n + (k + rest + 1) = Script.stepLimit) :
    Surfaces e (runTask s task) w (m₁.callbackFailure w₂ form e').toBridge (after w₅)

namespace BridgeError

/-- What a failure keeps on its way: its kind, its message, and its tag if it has one. -/
structure Kept (e e' : BridgeError) : Prop where
  kind : e'.kind = e.kind
  message : e'.message = e.message
  tag : ∀ tag, e.tag = some tag → e'.tag = some tag

theorem Kept.refl (e : BridgeError) : e.Kept e := ⟨rfl, rfl, fun _ same => same⟩

theorem Kept.withTag {e e' : BridgeError} (kept : e.Kept e') (tag : String) :
    e.Kept (e'.withTag tag) where
  kind := kept.kind
  message := kept.message
  tag := fun own same => by simp [BridgeError.withTag, kept.tag own same]

end BridgeError

namespace Surfaces

variable {α : Type} {a : Action α} {w w' : World} {e e' : BridgeError}

/-- A failure that is raised in a nesting comes out of it. -/
theorem ends (surfaces : Surfaces e a w e' w') : Ends a w (.error (.failed e')) w' := by
  induction surfaces with
  | raised ends => exact ends
  | first _ ih => exact ih.then_error
  | later before _ ih => exact before.then_ok ih
  | within _ ih => exact ih.within_error
  | tagged _ ih => exact Ends.scope_iff.mpr ⟨_, _, ih, Ends.throw_iff.mpr ⟨rfl, rfl⟩⟩
  | rethrown _ hands ih => exact ih.attempt_error.then_ok hands
  | @script s task m m₁ m₂ w w₁ w₂ w₃ w₄ w₅ after form body e' site n k rest result starts goes calls
      _ place onward again uncaught ends inTime steps ih =>
    obtain rfl := Script.Machine.run_uncaught uncaught again ends (.inr inTime)
    have returned := calls.step (Script.Machine.ends_callNative ih place)
    have running : Ends (m.run Script.stepLimit) w₁ _ w₅ :=
      steps ▸ goes.run (Ends.then_ok returned (onward.run ends))
    exact Ends.runTask_iff.mpr (.inr ⟨_, starts _ _ running, rfl⟩)

/-- A failure comes out of a nesting with the kind, the message and the tag that it was raised
with. -/
theorem kept (surfaces : Surfaces e a w e' w') : e.Kept e' := by
  induction surfaces with
  | raised => exact .refl e
  | first _ ih | later _ _ ih | within _ ih | rethrown _ _ ih | script _ _ _ _ _ _ _ _ _ _ _ ih =>
    exact ih
  | tagged _ ih => exact ih.withTag _

end Surfaces

section Tasks

variable {s : StateId} {w : World}

/-- The world in which a coroutine that is resumed begins or goes on. -/
def World.resuming (w : World) (s : StateId) (r : Ref) : World :=
  ((Op.setRunning s r).apply (w.changeThread r fun t => { t with progress := .active })).2

/-- The world after the bridge has resumed a coroutine: the one before it runs again. -/
def World.resumedFrom (before : World) (s : StateId) (r : Ref) (w : World) : World :=
  ((Op.setRunning s (((before.engine? s).map (·.running)).getD r)).apply w).2

theorem ends_resumeAt {r : Ref} {konts : List Kont} {control : Script.Control} {outcome : Outcome}
    {w₂ : World}
    (ends : Ends (Machine.run Script.stepLimit
      { state := s, thread := r, control := control, konts := konts, isResumed := true })
      (w.resuming s r) (.ok outcome) w₂) :
    Ends (Script.resumeAt s r konts control) w (.ok outcome) (w.resumedFrom s r w₂) := by
  unfold Script.resumeAt
  rw [Ends.view_bind_iff]
  refine Ends.then_ok (Ends.updateThread_iff.mpr ⟨rfl, rfl⟩) ?_
  rw [Ends.perform_bind_iff]
  refine Ends.then_ok ends ?_
  rw [Ends.perform_bind_iff]
  exact Ends.pure_iff.mpr ⟨rfl, rfl⟩

theorem starts_fresh {r : Ref} {body : Datum} (found : w.progressOf r = some (.fresh body))
    (args : List Datum) :
    Starts s (.resume r args) w
      { state := s, thread := r, control := .call (.datum body) args {}, isResumed := true }
      (w.resuming s r) (w.resumedFrom s r) := by
  intro outcome w₂ ends
  change Ends (Script.resume s r args) w _ _
  unfold Script.resume
  rw [Ends.view_bind_iff, found]
  exact ends_resumeAt ends

end Tasks

namespace Surfaces

variable {w w₁ w₂ : World} {e e' : BridgeError} {h : Handle} {args : List Value}
  {data : List Datum}

/-- A call of a script function hands on what comes out of it. -/
theorem call (kind : h.kind = .function) (isOpen : w.isOpen h.state)
    (converted : Ends (Value.toData h.state args) ((Scope.operation h.state).enter w) (.ok data) w₁)
    (inner : Surfaces e (runTask h.state (.call h.datum data)) w₁ e' w₂) :
    Surfaces e ((Value.handle h).call args) w e' ((Scope.operation h.state).exit [] w₂) := by
  simp only [Value.call, kind]
  exact .later (Ends.checkOpen isOpen) (.within (.later converted (.first inner)))

/-- To resume a coroutine hands on what comes out of it. -/
theorem resume (kind : h.kind = .thread) (isOpen : w.isOpen h.state)
    (waits : ((Scope.operation h.state).enter w).threadState h.target = .fresh ∨
      ((Scope.operation h.state).enter w).threadState h.target = .yielded)
    (converted : Ends (Value.toData h.state args)
      (((Scope.operation h.state).enter w).changeThread h.target fun t => { t with resumed := true })
      (.ok data) w₁)
    (inner : Surfaces e (runTask h.state (.resume h.target data)) w₁ e' w₂) :
    Surfaces e ((Value.handle h).call args) w e' ((Scope.operation h.state).exit [] w₂) := by
  simp only [Value.call, kind]
  refine .later (Ends.checkOpen isOpen) (.within (.later (Ends.view_iff.mpr ⟨rfl, rfl⟩) ?_))
  rcases waits with waits | waits
  all_goals
    rw [waits]
    exact .later (Ends.markResumed_iff.mpr ⟨rfl, rfl⟩) (.later converted (.first inner))

end Surfaces

/-- However deeply native code and scripts call each other, a failure that is handed on comes out with
the kind, the message and the tag that it was raised with; and an engine gives back exactly the
bridge failure inside of what it carries, or one of its own if there is none. -/
theorem failures_survive :
    (∀ (e e' : BridgeError) (α : Type) (a : Action α) (w w' : World), Surfaces e a w e' w' →
      Ends a w (.error (.failed e')) w' ∧ e.Kept e') ∧
    ∀ err : EngineError,
      (∀ e, EngineError.Tower (.bridge e) err → err.toBridge = e) ∧
      ((∀ e, ¬ EngineError.Tower (.bridge e) err) →
        err.toBridge.kind = .engineRuntime ∧
        ((∃ m, err = .syntaxError m) → err.toBridge.tag = some "engine.syntax") ∧
        ((∀ m, err ≠ .syntaxError m) → err.toBridge.tag = some "engine.runtime")) :=
  ⟨fun _ _ _ _ _ _ surfaces => ⟨surfaces.ends, surfaces.kept⟩,
    fun _ => ⟨fun _ tower => tower.toBridge, EngineError.toBridge_foreign⟩⟩

/-- The native function that a machine calls without arguments. -/
def Script.Machine.hostCall? (m : Machine) (w : World) : Option (HostFunction × CallForm) :=
  match m.control with
  | .call (.datum (.function r)) [] form =>
    match w.cell? r with
    | some (.builtin (.host h)) => some (h, form)
    | _ => none
  | _ => none

theorem Script.Machine.callsNative_of_hostCall? {m : Machine} {w : World} {h : HostFunction}
    {form : CallForm} (found : m.hostCall? w = some (h, form)) :
    m.CallsNative w form (runHost m.state h []) := by
  unfold hostCall? at found
  split at found
  · rename_i calls
    split at found
    · rename_i cell
      cases found
      exact .host calls cell
    · cases found
  · cases found

/-- A native function that fails, and a coroutine in which a script calls what it is given. -/
def nesting : List Step := [
  ⟨.openState .bare, []⟩, ⟨.createFunction 0 .fail, ["fail"]⟩,
  ⟨.execute 0 "return function(f) return f() end", ["body"]⟩,
  ⟨.newThread 0 (.handle ⟨.function, ⟨0, 31⟩, 1⟩), ["coroutine"]⟩]

theorem failures_survive_nesting : ∃ w', Ends
    ((Value.handle ⟨.thread, ⟨0, 32⟩, 2⟩).call [.handle ⟨.function, ⟨0, 29⟩, 0⟩])
    (Step.play {} nesting) (.error (.failed (.typeMismatch "bad value!"))) w' := by
  let w := (Scope.operation 0).enter (Step.play {} nesting)
  let w₁ := w.changeThread ⟨0, 32⟩ fun t => { t with resumed := true }
  let body : Datum := .function ⟨0, 31⟩
  let m : Machine :=
    { state := 0, thread := ⟨0, 32⟩, control := .call (.datum body) [.function ⟨0, 29⟩] {},
      isResumed := true }
  -- The script calls the failing function in its fifth step.
  obtain ⟨isOpen, waits, argument, begins, calling⟩ :
      (Step.play {} nesting).isOpen 0 = true ∧ w.threadState ⟨0, 32⟩ = .fresh ∧
      (Value.handle ⟨.function, ⟨0, 29⟩, 0⟩).datum w₁ 0 = .ok (.function ⟨0, 29⟩) ∧
      (w₁.progressOf ⟨0, 32⟩).bind (fun
        | .fresh d => some d
        | _ => none) = some body ∧
      ((m.advance 4 (w₁.resuming 0 ⟨0, 32⟩)).any fun (m, w) =>
        (m.hostCall? w).any (·.1 == .fail) && m.konts.all (!·.catches) &&
          m.callers.isEmpty) = true := by decide +kernel
  have converted : Ends (Value.toData 0 [.handle ⟨.function, ⟨0, 29⟩, 0⟩]) w₁
      (.ok [.function ⟨0, 29⟩]) w₁ :=
    Ends.toData_iff.mpr ⟨by simp [argument, Except.mapError, Bind.bind, Except.bind, Pure.pure,
      Except.pure], rfl⟩
  have fresh : w₁.progressOf ⟨0, 32⟩ = some (.fresh body) := by
    obtain ⟨progress, found, same⟩ := Option.bind_eq_some_iff.mp begins
    cases progress <;> simp_all
  obtain ⟨⟨m₁, w₂⟩, advances, calling⟩ := (Option.any_eq_true ..).mp calling
  simp only [Bool.and_eq_true, List.all_eq_true, Bool.not_eq_true', List.isEmpty_iff] at calling
  obtain ⟨⟨called, spared⟩, alone⟩ := calling
  obtain ⟨⟨h, form⟩, hostCall, isFail⟩ := (Option.any_eq_true ..).mp called
  obtain rfl : h = .fail := by simpa using isFail
  have uncaught (failure : Datum) (site : Option Script.Site) :
      (m₁.raise failure site).Uncaught :=
    ⟨spared, fun c member => by simp [alone, Machine.raise] at member⟩
  have raised : Surfaces (.typeMismatch "bad value!") (Script.runHost m₁.state .fail [])
      (m₁.enterNative w₂ form) (.typeMismatch "bad value!") (m₁.enterNative w₂ form) :=
    .later (Ends.pure_iff.mpr ⟨rfl, rfl⟩) (.first (.raised (Ends.throw_iff.mpr ⟨rfl, rfl⟩)))
  let failing := m₁.raise (.failure (m₁.callbackFailure w₂ form (.typeMismatch "bad value!")))
    form.site
  have ended := Script.Machine.run_uncaught (uncaught _ form.site) rfl
    (Ends.of_run (failing.run 49999995) (m₁.leaveNative (m₁.enterNative w₂ form)))
    (.inl (by simp [alone, Machine.raise]))
  have script := Surfaces.script (starts_fresh fresh _) (Machine.goes_of_advance advances)
    (Machine.callsNative_of_hostCall? hostCall) raised (m₁.keepsPlace_enterNative w₂ form)
    (.here _ _) rfl (uncaught _ _) (Ends.of_run _ _) (by rw [ended]; simp) rfl
  have surfaces := Surfaces.resume (h := ⟨.thread, ⟨0, 32⟩, 2⟩) (w := Step.play {} nesting) rfl
    isOpen (.inl waits) converted script
  exact ⟨_, (failures_survive.1 _ _ _ _ _ _ surfaces).1⟩

end ScriptBridge
