import ScriptBridge.Proofs.Unfailing
import ScriptBridge.Script.Callback

/-!
What an engine does for a script on its own: it works on the heap of its state, and all else it
leaves to native code, of which it catches the failures.
-/

namespace ScriptBridge

open Script (CallbackResult runHost runMember)

/-- There are no handles in data. -/
theorem Script.CallbackResult.handles_eq_nil (result : CallbackResult) : handles result = [] := by
  cases result with
  | error => rfl
  | ok data => exact List.flatMap_eq_nil_iff.mpr fun _ _ => rfl

/-- The operations that an engine performs on its own for a script of a state. -/
def Op.OfEngine (s : StateId) : Op β → Prop
  | .view _ | .write .. | .print _ => True
  | .allocate s' _ | .setRunning s' _ | .takePlace s' | .givePlace s' => s' = s
  | _ => False

/-- What an engine asks for on its own. -/
def Request.OfEngine : Request β → Prop
  | .collect _ => True
  | .script .. | .deliver .. | .destroy _ => False

/-- The native code that a script of a state may call, with arguments that satisfy a condition. -/
inductive OfNative (N : List Script.Datum → Prop) (s : StateId) : {β : Type} → Action β → Prop where
  | host (f : HostFunction) {args : List Script.Datum} (given : N args) :
    OfNative N s (runHost s f args)
  | member (event : NativeEvent) {args : List Script.Datum} (given : N args) :
    OfNative N s (runMember s event args)

namespace Action

/-- Whether a program does only what an engine does for a script of a state, which gets no handles from
native code, fails with no error, and gives only what satisfies a condition, whatever it gets to see;
the arguments of native code satisfy a condition, too. -/
def Scripted (N : List Script.Datum → Prop) (s : StateId) : {α : Type} → Action α → (α → Prop) → Prop
  | _, .pure a, P => P a
  | _, .fail f, _ => f = .exhausted
  | _, .op o next, P => o.OfEngine s ∧ ∀ b, (next b).Scripted N s P
  | _, .request r next, P => r.OfEngine ∧ ∀ b, (next b).Scripted N s P
  | _, .scope sc held body next, P =>
    sc = .values ∧ OfNative N s body ∧ (∀ b, held b = []) ∧ ∀ result, (next result).Scripted N s P

namespace Scripted

variable {α β : Type} {N : List Script.Datum → Prop} {s : StateId} {P : α → Prop} {Q : β → Prop}

theorem pure {a : α} (holds : P a) : (Pure.pure a : Action α).Scripted N s P := holds

theorem bind {a : Action α} {f : α → Action β} (first : a.Scripted N s P)
    (rest : ∀ x, P x → (f x).Scripted N s Q) : (a >>= f).Scripted N s Q := by
  change (a.bind f).Scripted N s Q
  induction a with
  | pure a => exact rest a first
  | fail => exact first
  | op _ _ ih => exact ⟨first.1, fun b => ih b (first.2 b) rest⟩
  | request _ _ ih => exact ⟨first.1, fun b => ih b (first.2 b) rest⟩
  | scope _ _ _ _ _ ih =>
    obtain ⟨values, native, nothing, after⟩ := first
    exact ⟨values, native, nothing, fun result => ih result (after result) rest⟩

/-- A sequence whose first program may give anything. -/
theorem after {a : Action α} {f : α → Action β} (first : a.Scripted N s fun _ => True)
    (rest : ∀ x, (f x).Scripted N s Q) : (a >>= f).Scripted N s Q :=
  first.bind fun x _ => rest x

/-- A sequence that begins with an elementary operation. -/
theorem next {o : Op α} {f : α → Action β} (own : o.OfEngine s)
    (rest : ∀ x, (f x).Scripted N s Q) : (perform o >>= f).Scripted N s Q :=
  ⟨own, rest⟩

theorem map {a : Action α} {f : α → β} (first : a.Scripted N s P) (gives : ∀ x, P x → Q (f x)) :
    (f <$> a).Scripted N s Q :=
  first.bind gives

/-- To catch what native code fails with. -/
theorem attempt {body : Action CallbackResult} (native : OfNative N s body) :
    (Action.attempt body).Scripted N s fun _ => True := by
  refine ⟨rfl, native, CallbackResult.handles_eq_nil, ?_⟩
  rintro ((e | _) | b)
  · exact trivial
  · exact rfl
  · exact trivial

/-- What an engine does for a script fails only by not coming to an end. -/
theorem brings {a : Action α} (scripted : a.Scripted N s P) : a.Brings P := by
  induction a with
  | pure | fail => exact scripted
  | op _ _ ih => exact fun b => ih b (scripted.2 b)
  | request r _ ih =>
    refine ⟨?_, fun b => ih b (scripted.2 b)⟩
    cases r with
    | collect => exact trivial
    | script | deliver | destroy => exact scripted.1.elim
  | scope _ _ _ _ _ ih =>
    have after := fun result => ih result (scripted.2.2.2 result)
    exact ⟨after _, fun b => after _, .inr fun e => after _⟩

end Scripted

end Action

end ScriptBridge
