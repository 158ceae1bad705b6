import Mathlib.Data.List.Forall2
import ScriptBridge.Proofs.Computed
import ScriptBridge.Proofs.Traces

/-!
Pairs of runs. A program follows another one if in every run of that in which no code of scripts takes
part, the two take the same course: both give results or both fail alike, and what relates the worlds
in which they start becomes what relates those in which they end. Each way of composing programs has
one rule.
-/

namespace ScriptBridge

/-- Whether a table does by itself what is asked of a member: it has no metatable, or it has a value
under the key. -/
def World.isRaw (w : World) (r : Ref) (key : Script.Datum) : Bool :=
  match w.cell? r with
  | some (.table content metatable) => metatable.isNone || !(content.get key).isNil
  | _ => false

/-- Whether nothing that scripts have written is about to run. -/
def Moment.isUnscripted : Moment → Bool
  | .request (.script _ (.index (.table r) key)) w => w.isRaw r key
  | .request (.script _ (.assign (.table r) key _)) w => w.isRaw r key
  | .request (.script ..) _ | .request (.collect _) _ => false
  | .request (.deliver c ..) w => match c.receiver with
    | .script s _ => !w.isOpen s
    | .slot .. => true
  | .request (.destroy _) _ | .op .. => true

namespace Action

variable {α β : Type} {n : Nat} {w w₁ w' : World}

/-- Whether no code of scripts takes part in the run of a program. -/
def Unscripted (n : Nat) (a : Action α) (w : World) : Prop :=
  ∀ m ∈ (a.trace n w).1, m.isUnscripted = true

namespace Unscripted

theorem of_bind {a : Action α} {f : α → Action β} (unscripted : (a >>= f).Unscripted n w) :
    a.Unscripted n w := by
  intro m member
  refine unscripted m ?_
  rw [trace_bind]
  split
  · rename_i moments x w₁ first
    rw [first] at member
    exact List.mem_append_left _ member
  · rename_i moments e w₁ first
    rwa [first] at member

theorem of_bind_ok {a : Action α} {f : α → Action β} (unscripted : (a >>= f).Unscripted n w) {x : α}
    (first : a.runTo n w = (.ok x, w₁)) : (f x).Unscripted n w₁ := by
  intro m member
  refine unscripted m ?_
  rw [trace_bind]
  rw [← trace_snd] at first
  split
  · rename_i moments y w₂ ran
    rw [ran] at first
    cases first
    exact List.mem_append_right _ member
  · rename_i moments e w₂ ran
    rw [ran] at first
    cases first

theorem of_body {s : Scope} {held : α → List Handle} {body : Action α}
    {next : Except Fault α → Action β} (unscripted : (Action.scope s held body next).Unscripted n w) :
    body.Unscripted n (s.enter w) := by
  intro m member
  refine unscripted m ?_
  rw [trace_scope]
  exact List.mem_append_left _ member

theorem of_ask {r : Request β} (unscripted : (ask r).Unscripted (n + 1) w) :
    (Moment.request r w).isUnscripted = true ∧ r.program.Unscripted n w := by
  have moments : ((ask r).trace (n + 1) w).1 = .request r w :: (r.program.trace n w).1 := by
    change (traceWith (fun r w => trace n r.program w) (.request r .pure) w).1 = _
    simp only [traceWith]
    split
    · rename_i inner b w₁ ran
      simp [ran]
    · rename_i inner e w₁ ran
      simp [ran]
  refine ⟨unscripted _ (by simp [moments]), fun m member => unscripted m ?_⟩
  rw [moments]
  exact .tail _ member

end Unscripted

/-- A second program follows a first one: where no code of scripts takes part in the run of the first,
both give results or both fail in the same way. `R` relates the worlds in which they start, `P` the
results and worlds in which they end, and `F` the worlds in which they fail. -/
def Follows (n : Nat) (R : World → World → Prop) (a a' : Action α) (P : α → α → World → World → Prop)
    (F : World → World → Prop) : Prop :=
  ∀ w w', R w w' → a.Unscripted n w →
    (∃ x x' w₁ w₁', a.runTo n w = (.ok x, w₁) ∧ a'.runTo n w' = (.ok x', w₁') ∧ P x x' w₁ w₁') ∨
      ∃ e w₁ w₁', a.runTo n w = (.error e, w₁) ∧ a'.runTo n w' = (.error e, w₁') ∧ F w₁ w₁'

/-- The programs keep what relates the worlds, and their results are related. -/
abbrev FollowsIn (n : Nat) (T : World → World → Prop) (a a' : Action α) (V : α → α → Prop) : Prop :=
  Follows n T a a' (fun x x' w w' => V x x' ∧ T w w') T

namespace Follows

variable {R R' : World → World → Prop} {P Q : α → α → World → World → Prop} {F F' : World → World → Prop}

theorem pure {x x' : α} (holds : ∀ w w', R w w' → P x x' w w') :
    Follows n R (Pure.pure x) (Pure.pure x') P F :=
  fun w w' related _ => .inl ⟨x, x', w, w', runTo_pure n x w, runTo_pure n x' w', holds w w' related⟩

theorem fail {e : Fault} (holds : ∀ w w', R w w' → F w w') :
    Follows n R (Action.fail e : Action α) (Action.fail e) P F :=
  fun w w' related _ => .inr ⟨e, w, w', runTo_fail n e w, runTo_fail n e w', holds w w' related⟩

theorem throw {e : BridgeError} (holds : ∀ w w', R w w' → F w w') :
    Follows n R (Action.throw e : Action α) (Action.throw e) P F :=
  fail holds

theorem mono {a a' : Action α} (follows : Follows n R a a' P F) (before : ∀ w w', R' w w' → R w w')
    (after : ∀ x x' w w', P x x' w w' → Q x x' w w') (failing : ∀ w w', F w w' → F' w w') :
    Follows n R' a a' Q F' := by
  intro w w' related unscripted
  rcases follows w w' (before w w' related) unscripted with
    ⟨x, x', w₁, w₁', ran, ran', holds⟩ | ⟨e, w₁, w₁', ran, ran', holds⟩
  · exact .inl ⟨x, x', w₁, w₁', ran, ran', after x x' w₁ w₁' holds⟩
  · exact .inr ⟨e, w₁, w₁', ran, ran', failing w₁ w₁' holds⟩

/-- What holds of the worlds beforehand may choose what relates them. -/
theorem of_exists {ι : Type} {R : ι → World → World → Prop} {a a' : Action α}
    (follows : ∀ i, Follows n (R i) a a' P F) : Follows n (fun w w' => ∃ i, R i w w') a a' P F :=
  fun w w' ⟨i, related⟩ => follows i w w' related

/-- What follows from how the worlds are related may be used. -/
theorem of_related {a a' : Action α} (follows : ∀ w w', R w w' → Follows n R a a' P F) :
    Follows n R a a' P F :=
  fun w w' related => follows w w' related w w' related

theorem bind {a a' : Action α} {f f' : α → Action β} {Q : β → β → World → World → Prop}
    (first : Follows n R a a' P F) (rest : ∀ x x', Follows n (P x x') (f x) (f' x') Q F) :
    Follows n R (a >>= f) (a' >>= f') Q F := by
  intro w w' related unscripted
  rcases first w w' related unscripted.of_bind with
    ⟨x, x', w₁, w₁', ran, ran', holds⟩ | ⟨e, w₁, w₁', ran, ran', holds⟩
  · rw [runTo_bind_ok ran, runTo_bind_ok ran']
    exact rest x x' w₁ w₁' holds (unscripted.of_bind_ok ran)
  · exact .inr ⟨e, w₁, w₁', runTo_bind_error ran, runTo_bind_error ran', holds⟩

theorem perform {o o' : Op α}
    (holds : ∀ w w', R w w' → P (o.apply w).1 (o'.apply w').1 (o.apply w).2 (o'.apply w').2) :
    Follows n R (Action.perform o) (Action.perform o') P F := by
  have ran (o : Op α) (w : World) :
      (Action.perform o).runTo n w = (.ok (o.apply w).1, (o.apply w).2) := by
    cases n <;> rfl
  exact fun w w' related _ => .inl ⟨_, _, _, _, ran o w, ran o' w', holds w w' related⟩

/-- What follows a look at the world. -/
theorem view {look look' : World → β} {V : β → β → Prop} {f f' : β → Action α}
    (same : ∀ w w', R w w' → V (look w) (look' w'))
    (rest : ∀ x x', V x x' → Follows n R (f x) (f' x') P F) :
    Follows n R (Action.view look >>= f) (Action.view look' >>= f') P F := by
  intro w w' related unscripted
  have onward : (f (look w)).Unscripted n w :=
    unscripted.of_bind_ok (a := Action.view look) (by cases n <;> rfl)
  rw [runTo_view_bind, runTo_view_bind]
  exact rest _ _ (same w w' related) w w' related onward

/-- What follows a look at the world that shows the same to both. -/
theorem view_eq {look look' : World → β} {f f' : β → Action α}
    (same : ∀ w w', R w w' → look' w' = look w) (rest : ∀ x, Follows n R (f x) (f' x) P F) :
    Follows n R (Action.view look >>= f) (Action.view look' >>= f') P F := by
  refine view (V := fun x x' => x' = x) same fun x x' equal => ?_
  rw [equal]
  exact rest x

/-- What a scope is entered and left with. -/
theorem within [Holding α] {s : Scope} {a a' : Action α} {R' : World → World → Prop}
    {P' : α → α → World → World → Prop} {F' : World → World → Prop}
    (enter : ∀ w w', R w w' → R' (s.enter w) (s.enter w')) (inside : Follows n R' a a' P' F')
    (exit : ∀ x x' w w', P' x x' w w' → P x x' (s.exit (handles x) w) (s.exit (handles x') w'))
    (exit_error : ∀ w w', F' w w' → F (s.exit [] w) (s.exit [] w')) :
    Follows n R (Action.within s a) (Action.within s a') P F := by
  intro w w' related unscripted
  rcases inside _ _ (enter w w' related) unscripted.of_body with
    ⟨x, x', w₁, w₁', ran, ran', holds⟩ | ⟨e, w₁, w₁', ran, ran', holds⟩
  · exact .inl ⟨x, x', _, _, (runTo_scope ran).trans (runTo_pure n x _),
      (runTo_scope ran').trans (runTo_pure n x' _), exit x x' w₁ w₁' holds⟩
  · exact .inr ⟨e, _, _, (runTo_scope ran).trans (runTo_fail n e _),
      (runTo_scope ran').trans (runTo_fail n e _), exit_error w₁ w₁' holds⟩

/-- A failure that both programs catch is the same. -/
theorem attempt [Holding α] {a a' : Action α} {T : World → World → Prop}
    (enter : ∀ w w', T w w' → T (Scope.values.enter w) (Scope.values.enter w'))
    (exit : ∀ held held' w w', T w w' → T (Scope.values.exit held w) (Scope.values.exit held' w'))
    {V : α → α → Prop} (inside : FollowsIn n T a a' V) :
    FollowsIn n T (Action.attempt a) (Action.attempt a') fun x x' =>
      (∃ y y', x = .ok y ∧ x' = .ok y' ∧ V y y') ∨ ∃ e, x = .error e ∧ x' = .error e := by
  intro w w' related unscripted
  rcases inside _ _ (enter w w' related) unscripted.of_body with
    ⟨x, x', w₁, w₁', ran, ran', alike, holds⟩ | ⟨e | _, w₁, w₁', ran, ran', holds⟩
  · exact .inl ⟨_, _, _, _, runTo_attempt_ok ran, runTo_attempt_ok ran',
      .inl ⟨x, x', rfl, rfl, alike⟩, exit _ _ _ _ holds⟩
  · exact .inl ⟨_, _, _, _, runTo_attempt_error ran, runTo_attempt_error ran',
      .inr ⟨e, rfl, rfl⟩, exit _ _ _ _ holds⟩
  · exact .inr ⟨.exhausted, _, _, runTo_attempt_exhausted ran, runTo_attempt_exhausted ran',
      exit _ _ _ _ holds⟩

/-- Requests that are carried out by programs of which one follows the other. At depth zero they are
refused. -/
theorem ask {r r' : Request β} {P : β → β → World → World → Prop}
    (refused : ∀ w w', R w w' → (∃ x, (refuse r w).1 = .ok x ∧ (refuse r' w').1 = .ok x ∧ P x x w w') ∨
      ∃ e, (refuse r w).1 = .error e ∧ (refuse r' w').1 = .error e ∧ F w w')
    (carried : ∀ k, n = k + 1 → ∀ w w', R w w' → (Moment.request r w).isUnscripted = true →
      Follows k (fun v v' => v = w ∧ v' = w') r.program r'.program P F) :
    Follows n R (Action.ask r) (Action.ask r') P F := by
  intro w w' related unscripted
  cases n with
  | zero =>
    have ran {r : Request β} {w : World} {result : Except Fault β} (refuses : (refuse r w).1 = result) :
        (Action.ask r).runTo 0 w = (result, w) := by
      change runWith refuse (.request r .pure) w = _
      have same : refuse r w = (result, w) := Prod.ext refuses (refuse_world r w)
      cases result <;> simp only [runWith, same]
    rcases refused w w' related with ⟨x, refuses, refuses', holds⟩ | ⟨e, refuses, refuses', holds⟩
    · exact .inl ⟨x, x, w, w', ran refuses, ran refuses', holds⟩
    · exact .inr ⟨e, w, w', ran refuses, ran refuses', holds⟩
  | succ k =>
    have ran (r : Request β) (w : World) : (Action.ask r).runTo (k + 1) w = r.program.runTo k w := by
      change runWith (fun r w => runTo k r.program w) (.request r .pure) w = _
      simp only [runWith]
      split <;> simp_all
    obtain ⟨moment, inner⟩ := unscripted.of_ask
    rw [ran, ran]
    exact carried k rfl w w' related moment w w' ⟨rfl, rfl⟩ inner

section Keeping

variable {T : World → World → Prop} {a a' : Action α}

/-- What follows programs that keep what relates the worlds. -/
theorem next {V : α → α → Prop} {f f' : α → Action β} {P : β → β → World → World → Prop}
    (first : FollowsIn n T a a' V) (rest : ∀ x x', V x x' → Follows n T (f x) (f' x') P T) :
    Follows n T (a >>= f) (a' >>= f') P T :=
  first.bind fun x x' w w' ⟨alike, holds⟩ => rest x x' alike w w' holds

theorem next_eq {f f' : α → Action β} {P : β → β → World → World → Prop}
    (first : FollowsIn n T a a' fun x x' => x' = x) (rest : ∀ x, Follows n T (f x) (f' x) P T) :
    Follows n T (a >>= f) (a' >>= f') P T :=
  first.next fun x x' same => by
    rw [same]
    exact rest x

/-- A result that says less. -/
theorem weaken {V V' : α → α → Prop} (follows : FollowsIn n T a a' V) (weaker : ∀ x x', V x x' → V' x x') :
    FollowsIn n T a a' V' :=
  follows.mono (fun _ _ => id) (fun x x' _ _ => .imp_left (weaker x x')) fun _ _ => id

theorem map {V : α → α → Prop} {V' : β → β → Prop} {f : α → β} (follows : FollowsIn n T a a' V)
    (same : ∀ x x', V x x' → V' (f x) (f x')) : FollowsIn n T (f <$> a) (f <$> a') V' := by
  rw [map_eq_pure_bind, map_eq_pure_bind]
  exact follows.next fun x x' alike => pure fun _ _ holds => ⟨same x x' alike, holds⟩

theorem discard {V : α → α → Prop} (follows : FollowsIn n T a a' V) :
    FollowsIn n T (discard a) (discard a') fun _ _ => True :=
  follows.map fun _ _ _ => trivial

end Keeping

section Lists

variable {T : World → World → Prop} {ι : Type} {E : ι → ι → Prop} {V : β → β → Prop}

/-- A loop over related items gives related results. -/
theorem mapM {items items' : List ι} {f f' : ι → Action β} (related : List.Forall₂ E items items')
    (each : ∀ item item', E item item' → FollowsIn n T (f item) (f' item') V) :
    FollowsIn n T (items.mapM f) (items'.mapM f') (List.Forall₂ V) := by
  induction related with
  | nil => exact pure fun w w' holds => ⟨.nil, holds⟩
  | @cons item item' rest rest' first _ ih =>
    simp only [List.mapM_cons]
    refine (each item item' first).next fun y y' alike => ih.next fun ys ys' others => pure ?_
    exact fun _ _ holds => ⟨.cons alike others, holds⟩

theorem forM {items items' : List ι} {f f' : ι → Action Unit} (related : List.Forall₂ E items items')
    (each : ∀ item item', E item item' → FollowsIn n T (f item) (f' item') fun _ _ => True) :
    FollowsIn n T (items.forM f) (items'.forM f') fun _ _ => True := by
  induction related with
  | nil => exact pure fun w w' holds => ⟨trivial, holds⟩
  | @cons item item' rest rest' first _ ih =>
    exact (each item item' first).next fun _ _ _ => ih

/-- A loop over the same items. -/
theorem mapM_self (items : List ι) {f f' : ι → Action β} (each : ∀ item, FollowsIn n T (f item) (f' item) V) :
    FollowsIn n T (items.mapM f) (items.mapM f') (List.Forall₂ V) :=
  mapM (List.forall₂_same.mpr fun _ _ => rfl) fun item item' (same : item = item') => same ▸ each item

theorem forM_self (items : List ι) {f f' : ι → Action Unit}
    (each : ∀ item, FollowsIn n T (f item) (f' item) fun _ _ => True) :
    FollowsIn n T (items.forM f) (items.forM f') fun _ _ => True :=
  forM (List.forall₂_same.mpr fun _ _ => rfl) fun item item' (same : item = item') => same ▸ each item

end Lists

end Follows

end Action

end ScriptBridge
