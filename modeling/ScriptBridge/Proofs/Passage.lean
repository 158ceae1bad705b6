import Mathlib.Logic.Relation
import ScriptBridge.Proofs.Contract

/-!
The worlds of a run, one after another: between any two of them lie permitted changes only.
-/

namespace ScriptBridge

/-- What makes one world of a run from another. -/
inductive World.Change : World → World → Prop where
  | op {β : Type} {o : Op β} {w : World} (permitted : o.Permitted w) : Change w (o.apply w).2
  | enter (s : Scope) (w : World) : Change w (s.enter w)
  | exit (s : Scope) (result : List Handle) (w : World) : Change w (s.exit result w)
  | retain (s : StateId) (kept : List Nat) (w : World) : Change w (w.retain s kept).2

/-- A world that permitted changes make from another one. -/
def World.Later : World → World → Prop := Relation.ReflTransGen World.Change

namespace Moment

def Permitted : Moment → Prop
  | .op o w => o.Permitted w
  | .request r _ => r.Permitted

end Moment

/-- Permitted changes lead from one world to another through moments at which only what is permitted
is about to happen. -/
inductive Passage : World → List Moment → World → Prop where
  | arrive {w w' : World} (later : w.Later w') : Passage w [] w'
  | through {w w' : World} {m : Moment} {moments : List Moment} (later : w.Later m.world)
      (permitted : m.Permitted) (rest : Passage m.world moments w') : Passage w (m :: moments) w'

namespace World.Change

/-- What every permitted change keeps. -/
theorem sound {w w' : World} (change : w.Change w') (sound : w.Sound) : w'.Sound := by
  cases change with
  | op permitted => exact permitted.sound sound
  | enter s => exact sound.enter s
  | exit s result => exact sound.exit s result
  | retain s kept => exact sound.retain s kept

end World.Change

namespace World.Later

/-- What every change keeps holds of all later worlds. -/
theorem keeps {P : World → Prop} (step : ∀ w w', w.Change w' → P w → P w') {w w' : World}
    (later : w.Later w') (holds : P w) : P w' := by
  induction later with
  | refl => exact holds
  | tail _ change ih => exact step _ _ change ih

theorem sound {w w' : World} (later : w.Later w') (sound : w.Sound) : w'.Sound :=
  later.keeps (fun _ _ change => change.sound) sound

end World.Later

namespace Passage

variable {w w₁ w' : World} {moments later : List Moment}

theorem before {w₀ : World} (first : w₀.Later w) (passage : Passage w moments w') :
    Passage w₀ moments w' := by
  cases passage with
  | arrive later => exact .arrive (first.trans later)
  | through later permitted rest => exact .through (first.trans later) permitted rest

theorem arrives (passage : Passage w moments w') : w.Later w' := by
  induction passage with
  | arrive later => exact later
  | through later _ _ ih => exact later.trans ih

/-- A passage up to one of its moments, and from there on. -/
theorem split {m : Moment} (passage : Passage w (moments ++ m :: later) w') :
    Passage w moments m.world ∧ m.Permitted ∧ Passage m.world later w' := by
  induction moments generalizing w with
  | nil =>
    cases passage with
    | through reached permitted rest => exact ⟨.arrive reached, permitted, rest⟩
  | cons first before ih =>
    cases passage with
    | through reached permitted rest =>
      obtain ⟨left, here, right⟩ := ih rest
      exact ⟨.through reached permitted left, here, right⟩

end Passage

/-- One change after another leads from a world to another one, and all moments on the way are
there. -/
inductive Trail : World → List Moment → World → Prop where
  | here (w : World) : Trail w [] w
  | op {β : Type} {o : Op β} {w w' : World} {moments : List Moment} (allowed : o.Allowed w)
      (rest : Trail (o.apply w).2 moments w') : Trail w (.op o w :: moments) w'
  | request {β : Type} {r : Request β} {w w' : World} {moments : List Moment}
      (permitted : r.Permitted) (rest : Trail w moments w') : Trail w (.request r w :: moments) w'
  | enter {s : Scope} {w w' : World} {moments : List Moment}
      (rest : Trail (s.enter w) moments w') : Trail w moments w'
  | exit {s : Scope} {result : List Handle} {w w' : World} {moments : List Moment}
      (rest : Trail (s.exit result w) moments w') : Trail w moments w'
  | retain {s : StateId} {kept : List Nat} {w w' : World} {moments : List Moment}
      (rest : Trail (w.retain s kept).2 moments w') : Trail w moments w'

namespace Trail

variable {w w₁ w' : World} {moments later : List Moment}

theorem append (trail : Trail w moments w₁) (rest : Trail w₁ later w') :
    Trail w (moments ++ later) w' := by
  induction trail with
  | here => exact rest
  | op allowed _ ih => exact .op allowed (ih rest)
  | request permitted _ ih => exact .request permitted (ih rest)
  | enter _ ih => exact .enter (ih rest)
  | exit _ ih => exact .exit (ih rest)
  | retain _ ih => exact .retain (ih rest)

theorem passage (trail : Trail w moments w') : Passage w moments w' := by
  induction trail with
  | here => exact .arrive .refl
  | op allowed _ ih =>
    exact .through .refl allowed.permitted (ih.before (.single (.op allowed.permitted)))
  | request permitted _ ih => exact .through .refl permitted ih
  | enter _ ih => exact ih.before (.single (.enter _ _))
  | exit _ ih => exact ih.before (.single (.exit _ _ _))
  | retain _ ih => exact ih.before (.single (.retain _ _ _))

theorem sound (trail : Trail w moments w') (sound : w.Sound) : w'.Sound :=
  trail.passage.arrives.sound sound

end Trail

/-- The programs that carry out requests keep to what is permitted and give what is promised. -/
def Request.Kept : Prop :=
  ∀ {β : Type} (r : Request β) (w : World), w.Sound → r.Permitted →
    r.program.Meets (fun result w' => w'.Sound ∧ ∀ b, result = .ok b → r.Promises w b w') w

namespace Request

/-- However a request is carried out, it begins with permitted changes and keeps its promise. -/
theorem Kept.begins (kept : Kept) (finalizes : ∀ natives, (State.finalize natives).Respects
      fun _ => True) {r : Request β} {a : Action β} {w w₁ : World} (begins : r.Begins w a w₁)
    (sound : w.Sound) (permitted : r.Permitted) :
    Trail w [] w₁ ∧ w₁.Sound ∧
      a.Meets (fun result w' => w'.Sound ∧ ∀ b, result = .ok b → r.Promises w b w') w₁ := by
  cases begins with
  | program => exact ⟨.here w, sound, kept r w sound permitted⟩
  | refused =>
    refine ⟨.here w, sound, ?_⟩
    cases r with
    | script s task =>
      refine ⟨sound, ?_⟩
      rintro _ ⟨⟩
      exact ⟨fun data none => by simp at none, fun _ _ _ _ => rfl⟩
    | deliver | destroy => exact ⟨sound, fun b none => by simp at none⟩
    | collect s => exact ⟨sound, fun _ _ => trivial⟩
  | collected s w cells =>
    have removed := sound.retain s cells
    refine ⟨.retain (.here _), removed, ?_⟩
    refine (Action.Respects.within (finalizes _) _ removed).mono ?_
    exact fun _ _ after => ⟨after.1, fun _ _ => trivial⟩

end Request

namespace Runs

/-- Runs of programs that keep to what they may do go through such moments only, and what is
required of the end holds there. -/
theorem trail (kept : Request.Kept)
    (finalizes : ∀ natives, (State.finalize natives).Respects fun _ => True) {a : Action α}
    {w w' : World} {moments : List Moment} {outcome : Option (Except Fault α)}
    (runs : Runs a w moments outcome w') (sound : w.Sound)
    {Q : Except Fault α → World → Prop} (meets : a.Meets Q w) :
    Trail w moments w' ∧ ∀ result, outcome = some result → Q result w' := by
  induction runs with
  | stop => exact ⟨.here _, fun _ none => by simp at none⟩
  | pure | fail =>
    refine ⟨.here _, ?_⟩
    rintro _ ⟨⟩
    exact meets
  | op rest ih =>
    obtain ⟨allowed, going⟩ := meets
    obtain ⟨trail, ends⟩ := ih (allowed.permitted.sound sound) going
    exact ⟨.op allowed trail, ends⟩
  | requestStopped begins inner ih =>
    obtain ⟨started, sound₁, inside⟩ := kept.begins finalizes begins sound meets.1
    exact ⟨.request meets.1 (started.append (ih sound₁ inside).1), fun _ none => by simp at none⟩
  | requestFailed begins inner ih =>
    obtain ⟨started, sound₁, inside⟩ := kept.begins finalizes begins sound meets.1
    obtain ⟨trail, ends⟩ := ih sound₁ inside
    refine ⟨.request meets.1 (started.append trail), ?_⟩
    rintro _ ⟨⟩
    exact meets.2.1 _ _ (ends _ rfl).1
  | requestDone begins inner rest ihInner ihRest =>
    obtain ⟨started, sound₁, inside⟩ := kept.begins finalizes begins sound meets.1
    obtain ⟨trail, ends⟩ := ihInner sound₁ inside
    obtain ⟨sound₂, promised⟩ := ends _ rfl
    obtain ⟨going, onward⟩ := ihRest sound₂ (meets.2.2 _ _ sound₂ (promised _ rfl))
    exact ⟨.request meets.1 (started.append (trail.append going)), onward⟩
  | scopeStopped inner ih =>
    exact ⟨.enter (ih (sound.enter _) meets).1, fun _ none => by simp at none⟩
  | scopeDone inner rest ihInner ihRest =>
    have entered := sound.enter
    obtain ⟨trail, ends⟩ := ihInner (entered _) meets
    have sound₁ := trail.sound (entered _)
    obtain ⟨going, onward⟩ := ihRest (sound₁.exit _ _) (ends _ rfl)
    exact ⟨.enter (trail.append (.exit going)), onward⟩

end Runs

end ScriptBridge
