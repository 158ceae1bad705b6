import ScriptBridge.Proofs.Origins
import ScriptBridge.State.Opening

/-!
What programs may do while operations of the bridge are in progress: engines run scripts only within an
operation on their state, native code is called only there, and states are opened and closed only
outside of all operations.
-/

namespace ScriptBridge

/-- The tasks with which a state that is being opened is set up. -/
def Task.IsSetup : Task → Prop
  | .chunk name source _ =>
    (name, source) = (.ofString "=moonbridge", .ofString State.helperSource) ∨
      (name, source) = (.ofString "=each", .ofString State.eachSource)
  | .assign _ key _ => key = .str "each"
  | .call .. | .resume .. | .index .. => False

/-- Whether a request sets up a state. -/
def Request.SetsUp (s : StateId) : Request β → Prop
  | .script s' task => s' = s ∧ task.IsSetup
  | .deliver .. | .destroy _ | .collect _ => False

/-- The states of the operations that a scope stands for. -/
def Scope.operations : Scope → List StateId
  | .operation s => [s]
  | .values => []

/-- Whether an elementary operation is allowed while operations on some states are in progress. -/
def Op.Guarded (ops : List StateId) : Op β → Prop
  | .takePlace s => s ∈ ops
  | .openEngine _ | .closeEngine _ => ops = []
  | _ => True

/-- Whether a request is allowed while operations on some states are in progress. -/
def Request.Guarded (ops : List StateId) : Request β → Prop
  | .script s task => s ∈ ops ∨ task.IsSetup
  | .deliver .. | .destroy _ | .collect _ => True

namespace Action

/-- Whether a program does only what is allowed while operations on some states are in progress. -/
def Guarded (ops : List StateId) : {α : Type} → Action α → Prop
  | _, .pure _ | _, .fail _ => True
  | _, .op o next => o.Guarded ops ∧ ∀ b, (next b).Guarded ops
  | _, .request r next => r.Guarded ops ∧ ∀ b, (next b).Guarded ops
  | _, .scope s _ body next =>
    body.Guarded (s.operations ++ ops) ∧ ∀ result, (next result).Guarded ops

namespace Guarded

variable {α β : Type} {ops : List StateId}

theorem ofExcept (result : Except BridgeError α) : (Action.ofExcept result).Guarded ops := by
  cases result <;> exact trivial

theorem ofResult (result : Except Fault α) : (Action.ofResult result).Guarded ops := by
  cases result <;> exact trivial

theorem bind_iff {a : Action α} {f : α → Action β} (rest : ∀ x, (f x).Guarded ops) :
    (a >>= f).Guarded ops ↔ a.Guarded ops := by
  change (a.bind f).Guarded ops ↔ _
  induction a with
  | pure a => exact iff_true_intro (rest a)
  | fail => exact Iff.rfl
  | op _ _ ih => exact and_congr_right fun _ => forall_congr' fun b => ih b rest
  | request _ _ ih => exact and_congr_right fun _ => forall_congr' fun b => ih b rest
  | scope _ _ _ _ _ ih => exact and_congr_right fun _ => forall_congr' fun r => ih r rest

theorem bind {a : Action α} {f : α → Action β} (first : a.Guarded ops)
    (rest : ∀ x, (f x).Guarded ops) : (a >>= f).Guarded ops :=
  (bind_iff rest).mpr first

/-- The first program of a sequence is allowed if the sequence is. -/
theorem of_bind {a : Action α} {f : α → Action β} (guarded : (a >>= f).Guarded ops) :
    a.Guarded ops := by
  change (a.bind f).Guarded ops at guarded
  induction a with
  | pure | fail => exact trivial
  | op _ _ ih => exact ⟨guarded.1, fun b => ih b (guarded.2 b)⟩
  | request _ _ ih => exact ⟨guarded.1, fun b => ih b (guarded.2 b)⟩
  | scope _ _ _ _ _ ih => exact ⟨guarded.1, fun r => ih r (guarded.2 r)⟩

/-- A sequence that begins with an elementary operation. -/
theorem next {o : Op α} {f : α → Action β} (allowed : o.Guarded ops)
    (rest : ∀ x, (f x).Guarded ops) : (perform o >>= f).Guarded ops :=
  ⟨allowed, rest⟩

theorem perform {o : Op α} (allowed : o.Guarded ops) : (Action.perform o).Guarded ops :=
  ⟨allowed, fun _ => trivial⟩

theorem view (look : World → α) : (Action.view look).Guarded ops :=
  perform trivial

theorem ask {r : Request α} (allowed : r.Guarded ops) : (Action.ask r).Guarded ops :=
  ⟨allowed, fun _ => trivial⟩

theorem map {f : α → β} {a : Action α} (first : a.Guarded ops) : (f <$> a).Guarded ops :=
  first.bind fun _ => trivial

theorem discard {a : Action α} (first : a.Guarded ops) : (Functor.discard a).Guarded ops :=
  first.map

theorem forM {items : List α} {f : α → Action PUnit} (each : ∀ item, (f item).Guarded ops) :
    (items.forM f).Guarded ops := by
  induction items with
  | nil => exact trivial
  | cons item rest ih => exact (each item).bind fun _ => ih

theorem mapM {items : List α} {f : α → Action β} (each : ∀ item, (f item).Guarded ops) :
    (items.mapM f).Guarded ops := by
  induction items with
  | nil => exact trivial
  | cons item rest ih =>
    rw [List.mapM_cons]
    exact (each item).bind fun _ => ih.bind fun _ => trivial

theorem within [Holding α] {s : Scope} {body : Action α}
    (inside : body.Guarded (s.operations ++ ops)) : (Action.within s body).Guarded ops :=
  ⟨inside, ofResult⟩

/-- In an operation its state has an operation in progress. -/
theorem operation [Holding α] {s : StateId} {body : Action α} (inside : body.Guarded (s :: ops)) :
    (Action.operation s body).Guarded ops :=
  within inside

theorem attempt [Holding α] {body : Action α} (inside : body.Guarded ops) :
    (Action.attempt body).Guarded ops := by
  refine ⟨inside, ?_⟩
  rintro ((_ | _) | _) <;> exact trivial

/-- What an engine does for a script is allowed in an operation on its state, if the native code is
that it calls. -/
theorem of_scripted {N : List Script.Datum → Prop} {s : StateId} {a : Action α} {P : α → Prop}
    (own : s ∈ ops)
    (natives : ∀ {β : Type} {body : Action β}, OfNative N s body → body.Guarded ops)
    (scripted : a.Scripted N s P) : a.Guarded ops := by
  induction a with
  | pure | fail => exact trivial
  | op o _ ih =>
    refine ⟨?_, fun b => ih b (scripted.2 b)⟩
    have engine := scripted.1
    cases o with
    | takePlace s' =>
      obtain rfl : s' = s := engine
      exact own
    | openEngine | closeEngine => exact engine.elim
    | _ => exact trivial
  | request r _ ih =>
    refine ⟨?_, fun b => ih b (scripted.2 b)⟩
    cases r with
    | script => exact scripted.1.elim
    | _ => exact trivial
  | scope sc _ _ _ _ ih =>
    obtain ⟨rfl, native, -, after⟩ := scripted
    exact ⟨natives native, fun result => ih result (after result)⟩

end Guarded

end Action

end ScriptBridge
