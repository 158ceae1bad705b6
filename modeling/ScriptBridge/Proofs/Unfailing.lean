import ScriptBridge.Proofs.Ends

/-!
Programs that fail with no error: they catch what they run, and what they ask for cannot fail.
-/

namespace ScriptBridge

/-- Whether a request has nothing to fail with. -/
def Request.Unfailing : Request β → Prop
  | .collect _ | .destroy _ => True
  | .script .. | .deliver .. => False

namespace Action

/-- Whether a program fails with no error, and all that it may give satisfies a condition, whatever
it gets to see. -/
def Brings : {α : Type} → Action α → (α → Prop) → Prop
  | _, .pure a, P => P a
  | _, .fail f, _ => f = .exhausted
  | _, .op _ next, P => ∀ b, (next b).Brings P
  | _, .request r next, P => r.Unfailing ∧ ∀ b, (next b).Brings P
  | _, .scope _ _ body next, P =>
    (next (.error .exhausted)).Brings P ∧ (∀ b, (next (.ok b)).Brings P) ∧
      (body.Brings (fun _ => True) ∨ ∀ e, (next (.error (.failed e))).Brings P)

/-- What a program that brings what satisfies a condition ends with. -/
def Brought (P : α → Prop) : Except Fault α → Prop
  | .ok x => P x
  | .error f => f = .exhausted

variable {α β : Type} {P : α → Prop} {Q : β → Prop}

theorem Brings.pure {a : α} (holds : P a) : (Pure.pure a : Action α).Brings P := holds

theorem Brings.bind {a : Action α} {f : α → Action β} (first : a.Brings P)
    (rest : ∀ x, P x → (f x).Brings Q) : (a >>= f).Brings Q := by
  change (a.bind f).Brings Q
  induction a with
  | pure a => exact rest a first
  | fail => exact first
  | op _ _ ih => exact fun b => ih b (first b) rest
  | request _ _ ih => exact ⟨first.1, fun b => ih b (first.2 b) rest⟩
  | scope _ _ _ _ _ ih =>
    obtain ⟨exhausted, done, failed⟩ := first
    exact ⟨ih _ exhausted rest, fun b => ih _ (done b) rest, failed.imp_right fun catches e =>
      ih _ (catches e) rest⟩

/-- A sequence whose first program may give anything. -/
theorem Brings.after {a : Action α} {f : α → Action β} (first : a.Brings fun _ => True)
    (rest : ∀ x, (f x).Brings Q) : (a >>= f).Brings Q :=
  first.bind fun x _ => rest x

/-- A sequence that begins with an elementary operation. -/
theorem Brings.next {o : Op α} {f : α → Action β} (rest : ∀ x, (f x).Brings Q) :
    (perform o >>= f).Brings Q :=
  rest

theorem Brings.map {a : Action α} {f : α → β} (first : a.Brings P) (gives : ∀ x, P x → Q (f x)) :
    (f <$> a).Brings Q :=
  first.bind gives

theorem Brings.forM {items : List α} {f : α → Action PUnit}
    (each : ∀ item, (f item).Brings fun _ => True) : (items.forM f).Brings fun _ => True := by
  induction items with
  | nil => exact .pure trivial
  | cons item rest ih => exact .after (each item) fun _ => ih

theorem Brings.within [Holding α] {s : Scope} {body : Action α} (brings : body.Brings fun _ => True) :
    (Action.within s body).Brings fun _ => True :=
  ⟨rfl, fun _ => trivial, .inl brings⟩

/-- To catch what a program fails with is to fail with nothing. -/
theorem Brings.attempt [Holding α] (body : Action α) : (Action.attempt body).Brings fun _ => True :=
  ⟨rfl, fun _ => trivial, .inr fun _ => trivial⟩

end Action

open ScriptBridge.Action (Brings)

theorem brings_releaseNative (n : NativeId) : (releaseNative n).Brings fun _ => True := by
  refine .next fun native => ?_
  split
  · refine .next fun found => ?_
    split
    · exact ⟨trivial, fun _ => trivial⟩
    · exact .pure trivial
  · exact .pure trivial

theorem brings_reapAll (n : Nat) : (State.reapAll n).Brings fun _ => True := by
  induction n with
  | zero => exact .pure trivial
  | succ n ih =>
    refine .next fun found => ?_
    split
    · exact .pure trivial
    · exact .after (.forM brings_releaseNative) fun _ => ih

theorem brings_finalize (natives : List NativeId) : (State.finalize natives).Brings fun _ => True :=
  .forM fun n => .after (brings_releaseNative n) fun _ => .next fun _ => brings_reapAll _

theorem brings_destroyObject (o : ObjectId) : (destroyObject o).Brings fun _ => True := by
  refine .next fun isDestroyed => ?_
  split
  · exact .pure trivial
  · refine .next fun declares => ?_
    extract_lets rest
    have going (u : PUnit) : (rest u).Brings fun _ => True :=
      .next fun children => .forM fun child => ⟨trivial, fun _ => trivial⟩
    split
    · exact .after (.map (.attempt _) fun _ _ => trivial) going
    · exact going ⟨⟩

theorem Request.Unfailing.brings {r : Request β} (unfailing : r.Unfailing) {w w₁ : World}
    {a : Action β} (begins : r.Begins w a w₁) : a.Brings fun _ => True := by
  cases begins with
  | program =>
    cases r with
    | collect => exact .pure trivial
    | destroy o => exact brings_destroyObject o
    | script | deliver => exact unfailing.elim
  | refused =>
    cases r with
    | collect => exact .pure trivial
    | destroy o => exact rfl
    | script | deliver => exact unfailing.elim
  | collected => exact .within (brings_finalize _)

theorem Action.Brings.of_runs {α : Type} {P : α → Prop} {a : Action α} {w w' : World}
    {moments : List Moment} {outcome : Option (Except Fault α)} (brings : a.Brings P)
    (runs : Runs a w moments outcome w') : ∀ result, outcome = some result → Brought P result := by
  induction runs with
  | stop | requestStopped | scopeStopped => simp
  | pure =>
    rintro _ ⟨⟩
    exact brings
  | fail =>
    rintro _ ⟨⟩
    exact brings
  | op _ ih => exact ih (brings _)
  | requestFailed begins _ ih =>
    rintro _ ⟨⟩
    exact ih (brings.1.brings begins) _ rfl
  | requestDone _ _ _ _ ih => exact ih (brings.2 _)
  | scopeDone _ _ inside ih =>
    rename_i result _ _ _
    obtain ⟨exhausted, done, failed⟩ := brings
    rcases result with (e | _) | b
    · rcases failed with body | catches
      · cases (inside body _ rfl : Fault.failed e = .exhausted)
      · exact ih (catches e)
    · exact ih exhausted
    · exact ih (done b)

/-- A program fails only by not coming to an end, and what it gives satisfies what all that it may
give does. -/
theorem Action.Brings.of_ends {α : Type} {P : α → Prop} {a : Action α} (brings : a.Brings P)
    {w w' : World} {result : Except Fault α} (ends : Ends a w result w') : Brought P result := by
  obtain ⟨moments, runs⟩ := ends
  exact brings.of_runs runs _ rfl

end ScriptBridge
