import ScriptBridge.Proofs.Permitted
import ScriptBridge.Proofs.Runs

/-!
What programs must keep to, and what then holds of their runs: they perform only what is permitted,
ask engines only for what their states own, and are given nothing else.
-/

namespace ScriptBridge

open Script (Datum OwnedData)

/-- The references in what an engine is asked to do. -/
def Task.refs : Task → List Ref
  | .call f args => f.refs ++ Script.refsOf args
  | .resume thread args => thread :: Script.refsOf args
  | .index object key => object.refs ++ key.refs
  | .assign object key value => object.refs ++ key.refs ++ value.refs
  | .chunk _ _ args => Script.refsOf args

namespace Request

def Permitted : Request β → Prop
  | .script s task => Owned s task.refs
  | .deliver .. | .destroy _ | .collect _ => True

/-- What holds when a request has been carried out: an engine gives only what belongs to its state,
and to read what a table itself holds changes nothing. -/
def Promises : Request β → World → β → World → Prop
  | .script s task, w, outcome, w' =>
    (∀ data, outcome = .ok data → OwnedData s data) ∧
      ∀ r key, task = .index (.table r) key → (w.tableAt r).get key ≠ .nil → w' = w
  | .deliver .., _, _, _ | .destroy _, _, _, _ | .collect _, _, _, _ => True

end Request

namespace Action

/-- A program that starts in a world keeps to what is permitted, whatever becomes of its requests,
and ends as a condition says. -/
def Meets : {α : Type} → Action α → (Except Fault α → World → Prop) → World → Prop
  | _, .pure a, Q, w => Q (.ok a) w
  | _, .fail f, Q, w => Q (.error f) w
  | _, .op o next, Q, w => o.Allowed w ∧ (next (o.apply w).1).Meets Q (o.apply w).2
  | _, .request r next, Q, w =>
    r.Permitted ∧ (∀ f w', w'.Sound → Q (.error f) w') ∧
      ∀ b w', w'.Sound → r.Promises w b w' → (next b).Meets Q w'
  | _, .scope s held body next, Q, w =>
    body.Meets (fun result w' => (next result).Meets Q (s.exit (Scope.kept held result) w'))
      (s.enter w)

/-- The end of a program that keeps engines apart and gives what satisfies a condition. -/
def Gives (Q : α → Prop) (result : Except Fault α) (w : World) : Prop :=
  w.Sound ∧ ∀ a, result = .ok a → Q a

/-- A program keeps engines apart, wherever it starts, and gives what satisfies a condition. -/
def Respects (a : Action α) (Q : α → Prop) : Prop := ∀ w, w.Sound → a.Meets (Gives Q) w

/-- How the first of two programs in a sequence has to end. -/
def Continues (f : α → Action β) (Q : Except Fault β → World → Prop) :
    Except Fault α → World → Prop
  | .ok a, w => (f a).Meets Q w
  | .error e, w => Q (.error e) w

/-- A program keeps engines apart, whatever it gives. -/
abbrev Safe (a : Action α) : Prop := a.Respects fun _ => True

@[simp] theorem gives_ok {Q : α → Prop} {a : α} {w : World} :
    Gives Q (.ok a) w ↔ w.Sound ∧ Q a := by
  simp [Gives]

@[simp] theorem gives_error {Q : α → Prop} {f : Fault} {w : World} :
    Gives Q (.error f) w ↔ w.Sound := by
  simp [Gives]

namespace Meets

theorem mono {a : Action α} {Q Q' : Except Fault α → World → Prop} {w : World}
    (meets : a.Meets Q w) (weaker : ∀ result w, Q result w → Q' result w) : a.Meets Q' w := by
  induction a generalizing w with
  | pure a => exact weaker _ _ meets
  | fail f => exact weaker _ _ meets
  | op o next ih => exact ⟨meets.1, ih _ meets.2 weaker⟩
  | request r next ih =>
    obtain ⟨permitted, failing, going⟩ := meets
    exact ⟨permitted, fun f w' sound => weaker _ _ (failing f w' sound),
      fun b w' sound promised => ih b (going b w' sound promised) weaker⟩
  | scope s held body next ihBody ihNext =>
    exact ihBody meets fun result w' after => ihNext result after weaker

theorem bind_iff {a : Action α} {f : α → Action β} {Q : Except Fault β → World → Prop}
    {w : World} : (a >>= f).Meets Q w ↔ a.Meets (Continues f Q) w := by
  change (a.bind f).Meets Q w ↔ _
  induction a generalizing w with
  | pure a => exact Iff.rfl
  | fail f => exact Iff.rfl
  | op o next ih => exact and_congr_right fun _ => ih _
  | request r next ih =>
    refine and_congr_right fun _ => and_congr_right fun _ => ?_
    exact forall_congr' fun b => forall_congr' fun w' => forall_congr' fun _ =>
      forall_congr' fun _ => ih b
  | scope s held body next ihBody ihNext =>
    have same : (fun result w' => ((next result).bind f).Meets Q
          (s.exit (Scope.kept held result) w')) =
        fun result w' => (next result).Meets (Continues f Q)
          (s.exit (Scope.kept held result) w') :=
      funext fun result => funext fun w' => propext (ihNext result)
    simp only [Action.bind, Meets, same]

/-- A program that looks at the world goes on in the same world. -/
theorem view_iff {look : World → β} {f : β → Action α} {Q : Except Fault α → World → Prop}
    {w : World} : (view look >>= f).Meets Q w ↔ (f (look w)).Meets Q w :=
  and_iff_right trivial

theorem perform_iff {o : Op β} {f : β → Action α} {Q : Except Fault α → World → Prop}
    {w : World} : (perform o >>= f).Meets Q w ↔
      o.Allowed w ∧ (f (o.apply w).1).Meets Q (o.apply w).2 :=
  Iff.rfl

/-- A program that goes on with a result that is there already. -/
theorem ofExcept_iff {a : Except BridgeError β} {f : β → Action α}
    {Q : Except Fault α → World → Prop} {w : World} :
    (ofExcept a >>= f).Meets Q w ↔
      (∀ b, a = .ok b → (f b).Meets Q w) ∧ ∀ e, a = .error e → Q (.error (.failed e)) w := by
  cases a with
  | ok b =>
    constructor
    · intro meets
      exact ⟨fun _ same => Except.ok.inj same ▸ meets, fun e none => by simp at none⟩
    · intro both
      exact both.1 b rfl
  | error e =>
    constructor
    · intro failing
      exact ⟨fun b none => by simp at none, fun _ same => Except.error.inj same ▸ failing⟩
    · intro both
      exact both.2 e rfl

end Meets

namespace Respects

variable {Q : β → Prop} {P : α → Prop}

theorem pure {a : α} (holds : P a) : (Pure.pure a : Action α).Respects P :=
  fun _ sound => gives_ok.mpr ⟨sound, holds⟩

theorem fail (f : Fault) : (Action.fail f : Action α).Respects P :=
  fun _ sound => gives_error.mpr sound

theorem throw (e : BridgeError) : (Action.throw e : Action α).Respects P := fail _

theorem ofExcept {a : Except BridgeError α} (holds : ∀ x, a = .ok x → P x) :
    (Action.ofExcept a).Respects P := by
  cases a with
  | ok x => exact pure (holds x rfl)
  | error e => exact throw e

theorem mono {P' : α → Prop} {a : Action α} (respects : a.Respects P') (weaker : ∀ x, P' x → P x) :
    a.Respects P := by
  intro w sound
  refine (respects w sound).mono ?_
  rintro result w' ⟨sound', holds⟩
  exact ⟨sound', fun x same => weaker x (holds x same)⟩

/-- What a program gives does not matter to those that want nothing of it. -/
theorem safe {a : Action α} (respects : a.Respects P) : a.Safe :=
  respects.mono fun _ _ => trivial

theorem bind {a : Action α} {f : α → Action β} (first : a.Respects P)
    (rest : ∀ x, P x → (f x).Respects Q) : (a >>= f).Respects Q := by
  intro w sound
  rw [Meets.bind_iff]
  refine (first w sound).mono ?_
  rintro (e | x) w' ⟨sound', holds⟩
  · exact gives_error.mpr sound'
  · exact rest x (holds x rfl) w' sound'

theorem map {a : Action α} {f : α → β} (first : a.Respects P) (gives : ∀ x, P x → Q (f x)) :
    (f <$> a).Respects Q :=
  bind first fun x holds => pure (gives x holds)

theorem discard {a : Action α} (first : a.Respects P) : (Functor.discard a).Safe :=
  bind first fun _ _ => pure trivial

theorem perform {o : Op β} (allowed : ∀ w, w.Sound → o.Allowed w)
    (gives : ∀ w, w.Sound → Q (o.apply w).1) : (Action.perform o).Respects Q :=
  fun w sound =>
    ⟨allowed w sound, gives_ok.mpr
      ⟨(allowed w sound).permitted.sound sound, gives w sound⟩⟩

/-- An operation of which the result does not matter. -/
theorem act {o : Op β} (allowed : ∀ w, w.Sound → o.Allowed w) :
    (Action.perform o).Safe :=
  perform allowed fun _ _ => trivial

theorem view {look : World → β} (gives : ∀ w, w.Sound → Q (look w)) :
    (Action.view look).Respects Q :=
  perform (fun _ _ => trivial) gives

/-- A program that goes on with what it has seen. -/
theorem of_view {look : World → α} {f : α → Action β}
    (rest : ∀ w, w.Sound → (f (look w)).Respects Q) : (Action.view look >>= f).Respects Q :=
  bind (P := fun a => (f a).Respects Q) (view rest) fun _ respects => respects

theorem ask {r : Request β} (permitted : r.Permitted)
    (gives : ∀ w b w', r.Promises w b w' → Q b) : (Action.ask r).Respects Q :=
  fun w _ => ⟨permitted, fun _ _ sound => gives_error.mpr sound,
    fun b w' sound promised => gives_ok.mpr ⟨sound, gives w b w' promised⟩⟩

/-- A scope whose body gives what satisfies a condition. -/
theorem scope {s : Scope} {held : α → List Handle} {body : Action α}
    {next : Except Fault α → Action β} (inside : body.Respects P)
    (after : ∀ x, P x → (next (.ok x)).Respects Q) (failed : ∀ f, (next (.error f)).Respects Q) :
    (Action.scope s held body next).Respects Q := by
  intro w sound
  refine (inside _ (sound.enter s)).mono ?_
  rintro (f | x) w' ⟨sound', holds⟩
  · exact failed f _ (sound'.exit s _)
  · exact after x (holds x rfl) _ (sound'.exit s _)

theorem within [Holding α] {s : Scope} {body : Action α} (inside : body.Respects P) :
    (Action.within s body).Respects P :=
  scope inside (fun _ holds => pure holds) fun f => fail f

theorem operation [Holding α] {s : StateId} {body : Action α} (inside : body.Respects P) :
    (Action.operation s body).Respects P :=
  within inside

theorem attempt [Holding α] {body : Action α} (inside : body.Respects P) :
    (Action.attempt body).Respects fun result => ∀ x, result = .ok x → P x := by
  refine scope inside (fun x holds => pure ?_) fun f => ?_
  · rintro _ ⟨⟩
    exact holds
  · cases f with
    | failed e => exact pure fun x none => by simp at none
    | exhausted => exact fail _

theorem forM {items : List α} {f : α → Action Unit}
    (each : ∀ item ∈ items, (f item).Safe) : (items.forM f).Safe := by
  induction items with
  | nil => exact pure trivial
  | cons item rest ih =>
    exact bind (each item (by simp)) fun _ _ => ih fun item member => each item (by simp [member])

end Respects

theorem bind_pure (a : Action α) : a.bind .pure = a := by
  induction a with
  | pure a => rfl
  | fail f => rfl
  | op o next ih => exact congrArg (Action.op o) (funext ih)
  | request r next ih => exact congrArg (Action.request r) (funext ih)
  | scope s held body next ihBody ihNext =>
    exact congrArg (Action.scope s held body) (funext ihNext)

theorem bind_assoc (a : Action α) (f : α → Action β) (g : β → Action γ) :
    (a.bind f).bind g = a.bind fun x => (f x).bind g := by
  induction a with
  | pure a => rfl
  | fail e => rfl
  | op o next ih => exact congrArg (Action.op o) (funext fun b => ih b f)
  | request r next ih => exact congrArg (Action.request r) (funext fun b => ih b f)
  | scope s held body next ihBody ihNext =>
    exact congrArg (Action.scope s held body) (funext fun r => ihNext r f)

instance : LawfulMonad Action := LawfulMonad.mk' _ bind_pure (fun _ _ => rfl) bind_assoc

theorem Respects.mapM {items : List α} {f : α → Action β} {Q : β → Prop}
    (each : ∀ item ∈ items, (f item).Respects Q) :
    (items.mapM f).Respects fun results => ∀ b ∈ results, Q b := by
  induction items with
  | nil => exact .pure (by simp)
  | cons item rest ih =>
    rw [List.mapM_cons]
    refine .bind (each item (by simp)) fun b holds => ?_
    refine .bind (ih fun item member => each item (by simp [member])) fun results all => ?_
    exact .pure (by simpa using ⟨holds, all⟩)

end Action

end ScriptBridge
