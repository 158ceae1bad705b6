import ScriptBridge.Proofs.Threads

/-!
Programs that perform nothing but elementary operations: what they come to can be computed.
-/

namespace ScriptBridge

open Script (Thread updateThread)

namespace Action

/-- What a program comes to that performs nothing but elementary operations. -/
def straight : {α : Type} → Action α → World → Option (α × World)
  | _, .pure a, w => some (a, w)
  | _, .op o next, w => (next (o.apply w).1).straight (o.apply w).2
  | _, .fail _, _ | _, .request .., _ | _, .scope .., _ => none

variable {α β : Type} {w : World}

@[simp] theorem straight_pure (a : α) : (Pure.pure a : Action α).straight w = some (a, w) := rfl

@[simp] theorem straight_perform (o : Op α) : (perform o).straight w = some (o.apply w) := rfl

@[simp] theorem straight_view (look : World → α) : (view look).straight w = some (look w, w) := rfl

@[simp] theorem straight_bind (a : Action α) (f : α → Action β) :
    (a >>= f).straight w = (a.straight w).bind fun (x, w) => (f x).straight w := by
  change (a.bind f).straight w = _
  induction a generalizing w with
  | pure | fail | request | scope => rfl
  | op o next ih => exact ih _ f

@[simp] theorem straight_map (f : α → β) (a : Action α) :
    (f <$> a).straight w = (a.straight w).map fun (x, w) => (f x, w) := by
  rw [map_eq_pure_bind, straight_bind]
  cases a.straight w <;> rfl

theorem straight_updateThread (r : Ref) (f : Thread → Thread) (w : World) :
    (updateThread r f).straight w = some ((), w.changeThread r f) := by
  unfold updateThread World.changeThread
  rw [straight_bind, straight_view, Option.bind_some]
  dsimp only
  cases w.thread? r <;> rfl

theorem straight_checkOpen {h : Handle} {w : World} (isOpen : w.isOpen h.state) :
    h.checkOpen.straight w = some ((), w) := by
  unfold Handle.checkOpen Handle.ensureOpen
  rw [straight_bind, straight_view, Option.bind_some, if_pos isOpen]
  rfl

end Action

namespace Ends

variable {α β : Type} {w w₁ w' : World}

/-- Elementary operations have one outcome. -/
theorem straight_iff {a : Action α} {x : α} (goes : a.straight w = some (x, w₁))
    {result : Except Fault α} : Ends a w result w' ↔ result = .ok x ∧ w' = w₁ := by
  induction a generalizing w with
  | pure a =>
    cases goes
    exact pure_iff
  | op o next ih => exact op_iff.trans (ih _ goes)
  | fail | request | scope => cases goes

theorem checkOpen {h : Handle} (isOpen : w.isOpen h.state) : Ends h.checkOpen w (.ok ()) w :=
  (straight_iff (Action.straight_checkOpen isOpen)).mpr ⟨rfl, rfl⟩

/-- What follows elementary operations decides. -/
theorem straight_bind_iff {a : Action α} {f : α → Action β} {x : α}
    (goes : a.straight w = some (x, w₁)) {result : Except Fault β} :
    Ends (a >>= f) w result w' ↔ Ends (f x) w₁ result w' := by
  rw [bind_iff]
  simp only [straight_iff goes]
  constructor
  · rintro (⟨_, _, ⟨⟨⟩, rfl⟩, rest⟩ | ⟨_, rfl, none, -⟩)
    · exact rest
    · cases none
  · exact fun rest => .inl ⟨x, w₁, ⟨rfl, rfl⟩, rest⟩

end Ends

namespace Action

variable {α β : Type} {w w' : World}

/-- Whether a program has no requests and no scopes. -/
def Plain : {α : Type} → Action α → Prop
  | _, .pure _ | _, .fail _ => True
  | _, .op _ next => ∀ b, (next b).Plain
  | _, .request .. | _, .scope .. => False

theorem Plain.bind {a : Action α} {f : α → Action β} (first : a.Plain) (rest : ∀ x, (f x).Plain) :
    (a >>= f).Plain := by
  change (a.bind f).Plain
  induction a with
  | pure a => exact rest a
  | fail => trivial
  | op o next ih => exact fun b => ih b (first b) rest
  | request | scope => exact first.elim

theorem Plain.mapM {items : List α} {f : α → Action β} (each : ∀ item, (f item).Plain) :
    (items.mapM f).Plain := by
  induction items with
  | nil => trivial
  | cons item rest ih =>
    rw [List.mapM_cons]
    exact (each item).bind fun _ => ih.bind fun _ => trivial

/-- A program without requests and scopes ends in one way. -/
theorem Plain.ends_iff {a : Action α} (plain : a.Plain) {result : Except Fault α} :
    Ends a w result w' ↔ (result, w') = a.run w := by
  induction a generalizing w with
  | pure a => exact Ends.pure_iff.trans (Prod.mk.injEq ..).symm.to_iff
  | fail f => exact Ends.fail_iff.trans (Prod.mk.injEq ..).symm.to_iff
  | op o next ih => exact Ends.op_iff.trans (ih _ (plain _))
  | request | scope => exact plain.elim

/-- Whether a program makes no requests: no script runs in it, and no metamethod. -/
def Silent : {α : Type} → Action α → Prop
  | _, .pure _ | _, .fail _ => True
  | _, .op _ next => ∀ b, (next b).Silent
  | _, .request .. => False
  | _, .scope _ _ body next => body.Silent ∧ ∀ result, (next result).Silent

theorem Silent.bind {a : Action α} {f : α → Action β} (first : a.Silent)
    (rest : ∀ x, (f x).Silent) : (a >>= f).Silent := by
  change (a.bind f).Silent
  induction a with
  | pure a => exact rest a
  | fail => trivial
  | op o next ih => exact fun b => ih b (first b) rest
  | request => exact first.elim
  | scope s held body next ihBody ihNext =>
    exact ⟨first.1, fun result => ihNext result (first.2 result) rest⟩

theorem Silent.within [Holding α] {s : Scope} {body : Action α} (inside : body.Silent) :
    (within s body).Silent := by
  refine ⟨inside, fun result => ?_⟩
  cases result <;> trivial

/-- In a run of a program without requests there is none. -/
theorem Silent.runs {a : Action α} (silent : a.Silent) {moments : List Moment}
    {outcome : Option (Except Fault α)} (runs : Runs a w moments outcome w') (r : Request β)
    (v : World) : .request r v ∉ moments := by
  induction runs with
  | stop | pure | fail => simp
  | op rest ih => simpa using ih (silent _)
  | requestStopped | requestFailed | requestDone => exact silent.elim
  | scopeStopped inner ih => exact ih silent.1
  | scopeDone inner rest ihInner ihRest =>
    simpa using ⟨ihInner silent.1, ihRest (silent.2 _)⟩

end Action

end ScriptBridge
