import ScriptBridge.Proofs.Values

/-!
Worlds that are alike: they differ in no object, no native object, no heap and no remembered
wrapper.
Programs that leave the world alike may stand between a check and what depends on it.
-/

namespace ScriptBridge

open ScriptBridge.Action (Gives Meets)
open Script (Cell Datum)

/-- What engines hold and remember. -/
def Engine.content (e : Engine) : Store Cell × List (ObjectId × Ref) := (e.heap, e.wrappers)

structure World.Alike (w w' : World) : Prop where
  objects : w'.objects = w.objects
  natives : w'.natives = w.natives
  engines : ∀ s, (w'.engine? s).map Engine.content = (w.engine? s).map Engine.content

namespace World.Alike

variable {w w₁ w' : World}

theorem refl (w : World) : w.Alike w := ⟨rfl, rfl, fun _ => rfl⟩

theorem symm (alike : w.Alike w') : w'.Alike w :=
  ⟨alike.objects.symm, alike.natives.symm, fun s => (alike.engines s).symm⟩

theorem trans (first : w.Alike w₁) (second : w₁.Alike w') : w.Alike w' :=
  ⟨second.objects.trans first.objects, second.natives.trans first.natives,
    fun s => (second.engines s).trans (first.engines s)⟩

theorem modifyEngine (w : World) (s : StateId) {f : Engine → Engine}
    (same : ∀ e : Engine, (f e).content = e.content) : w.Alike (w.modifyEngine s f) where
  objects := rfl
  natives := rfl
  engines := by
    intro t
    rw [engine?_modifyEngine]
    split
    · rw [Option.map_map]
      exact congrArg (Option.map · _) (funext same)
    · rfl

theorem enter (s : Scope) (w : World) : w.Alike (s.enter w) := by
  have opened : w.Alike w.openScope := ⟨rfl, rfl, fun _ => rfl⟩
  cases s with
  | operation st => exact opened.trans (modifyEngine _ st fun _ => rfl)
  | values => exact opened

theorem closeScope (w : World) (result : List Handle) : w.Alike (w.closeScope result) := by
  have each (states : List StateId) (held : List Handle) (w : World) :
      w.Alike (states.foldl (fun (w : World) s =>
        w.modifyEngine s fun e => e.settle s w.level result held) w) := by
    induction states generalizing w with
    | nil => exact refl w
    | cons s rest ih =>
      exact (modifyEngine w s (f := fun e => e.settle s w.level result held) fun _ => rfl).trans
        (ih _)
  obtain ⟨objects, natives, engines⟩ := each w.openStates w.heldHandles w
  exact ⟨objects, natives, engines⟩

theorem exit (s : Scope) (result : List Handle) (w : World) : w.Alike (s.exit result w) := by
  cases s with
  | operation st => exact (closeScope w result).trans (modifyEngine _ st fun _ => rfl)
  | values => exact closeScope w result

theorem anchor (w : World) (target : Ref) : w.Alike (w.anchor target).2 :=
  modifyEngine w target.owner fun _ => rfl

section Looking

variable (alike : w.Alike w')
include alike

theorem engine {s : StateId} {e : Engine} (found : w.engine? s = some e) :
    ∃ e', w'.engine? s = some e' ∧ e'.heap = e.heap ∧ e'.wrappers = e.wrappers := by
  have same := alike.engines s
  rw [found] at same
  obtain ⟨e', there, content⟩ := Option.map_eq_some_iff.mp same
  exact ⟨e', there, (Prod.mk.inj content).1, (Prod.mk.inj content).2⟩

theorem cell? (r : Ref) : w'.cell? r = w.cell? r := by
  have look (w : World) : w.cell? r =
      ((w.engine? r.owner).map Engine.content).bind fun content => content.1.get? r.index := by
    simp only [World.cell?, Option.bind_eq_bind, Option.bind_map]
    rfl
  rw [look, look, alike.engines]

theorem tableAt (r : Ref) : w'.tableAt r = w.tableAt r := by
  simp only [World.tableAt, alike.cell?]

theorem native? (n : NativeId) : w'.native? n = w.native? n := by
  simp only [World.native?, alike.natives]

theorem isDestroyed (o : ObjectId) : w'.isDestroyed o = w.isDestroyed o := by
  simp only [World.isDestroyed, World.object?, alike.objects]

theorem isOpen (s : StateId) : w'.isOpen s = w.isOpen s := by
  have look (w : World) : w.isOpen s = ((w.engine? s).map Engine.content).isSome := by
    simp [World.isOpen]
  rw [look, look, alike.engines]

theorem wrapperOf? (s : StateId) (o : ObjectId) : w'.wrapperOf? s o = w.wrapperOf? s o := by
  cases engine : w.engine? s with
  | none =>
    have none : w'.engine? s = none := by
      simpa [engine] using alike.engines s
    simp only [World.wrapperOf?, engine, none]
    rfl
  | some e =>
    obtain ⟨e', there, -, wrappers⟩ := alike.engine engine
    simp only [World.wrapperOf?, engine, there, wrappers, alike.cell?, alike.native?,
      Option.bind_eq_bind, Option.bind_some]

theorem mayCache {s : StateId} {o : ObjectId} {r : Ref} (may : w.MayCache s o r) :
    w'.MayCache s o r where
  own := may.own
  wraps := by
    intro isOpen
    obtain ⟨n, owning, ownership, cell, native⟩ := may.wraps (by rw [← alike.isOpen]; exact isOpen)
    exact ⟨n, owning, ownership, by rw [alike.cell?, cell], by rw [alike.native?, native]⟩
  first := by rw [alike.wrapperOf?, may.first]

end Looking

theorem allocate (alike : w.Alike w') (s : StateId) (cell : Cell) :
    (w'.allocate s cell).1 = (w.allocate s cell).1 ∧
      (w.allocate s cell).2.Alike (w'.allocate s cell).2 := by
  have look (w : World) : ((w.engine? s).map (·.heap.next)).getD 0 =
      (((w.engine? s).map Engine.content).map fun content => content.1.next).getD 0 := by
    rw [Option.map_map]
    rfl
  refine ⟨?_, alike.objects, alike.natives, fun t => ?_⟩
  · simp only [World.allocate]
    rw [look, look, alike.engines]
  · simp only [World.allocate, engine?_modifyEngine]
    split
    · have placed (w : World) : ((w.engine? t).map fun e =>
          { e with heap := e.heap.add cell }).map Engine.content =
          ((w.engine? t).map Engine.content).map fun content =>
            (content.1.add cell, content.2) := by
        rw [Option.map_map, Option.map_map]
        rfl
      rw [placed, placed, alike.engines]
    · exact alike.engines t

end World.Alike

namespace Action

/-- A program that comes to a world alike to a given one whenever it starts in such a world and
succeeds. -/
def Spares (w₀ : World) (a : Action α) (Q : α → Prop) : Prop :=
  ∀ w, w.Sound → w₀.Alike w →
    a.Meets (fun result w' => w'.Sound ∧ ∀ x, result = .ok x → Q x ∧ w₀.Alike w') w

namespace Spares

variable {w₀ : World} {P : α → Prop} {Q : β → Prop}

theorem pure {a : α} (holds : P a) : Spares w₀ (Pure.pure a) P := by
  intro w sound alike
  refine ⟨sound, ?_⟩
  rintro _ ⟨⟩
  exact ⟨holds, alike⟩

theorem throw (e : BridgeError) : Spares w₀ (Action.throw e : Action α) P :=
  fun _ sound _ => ⟨sound, fun _ none => by simp at none⟩

theorem ofExcept {a : Except BridgeError α} (holds : ∀ x, a = .ok x → P x) :
    Spares w₀ (Action.ofExcept a) P := by
  cases a with
  | ok x => exact pure (holds x rfl)
  | error e => exact throw e

theorem bind {a : Action α} {f : α → Action β} (first : Spares w₀ a P)
    (rest : ∀ x, P x → Spares w₀ (f x) Q) : Spares w₀ (a >>= f) Q := by
  intro w sound alike
  rw [Meets.bind_iff]
  refine (first w sound alike).mono ?_
  rintro (e | x) w' ⟨sound', holds⟩
  · exact ⟨sound', fun _ none => by simp at none⟩
  · obtain ⟨given, alike'⟩ := holds x rfl
    exact rest x given w' sound' alike'

theorem of_view {look : World → α} {f : α → Action β}
    (rest : ∀ w, w₀.Alike w → Spares w₀ (f (look w)) Q) : Spares w₀ (Action.view look >>= f) Q :=
  fun w sound alike => Meets.view_iff.mpr (rest w alike w sound alike)

theorem operation [Holding α] {s : StateId} {body : Action α} (inside : Spares w₀ body P) :
    Spares w₀ (Action.operation s body) P := by
  intro w sound alike
  refine (inside _ (sound.enter _) (alike.trans (.enter _ w))).mono ?_
  rintro (f | x) w' ⟨sound', holds⟩
  · exact ⟨sound'.exit _ _, fun _ none => by simp at none⟩
  · refine ⟨sound'.exit _ _, ?_⟩
    rintro _ ⟨⟩
    exact ⟨(holds x rfl).1, (holds x rfl).2.trans (.exit _ _ w')⟩

theorem mapM {items : List α} {f : α → Action β}
    (each : ∀ item ∈ items, Spares w₀ (f item) fun _ => True) :
    Spares w₀ (items.mapM f) fun _ => True := by
  induction items with
  | nil => exact pure trivial
  | cons item rest ih =>
    rw [List.mapM_cons]
    refine bind (each item (by simp)) fun b _ => ?_
    exact bind (ih fun item member => each item (by simp [member])) fun _ _ => pure trivial

end Spares

end Action

namespace Value

open ScriptBridge.Action (Spares)

variable {w₀ : World}

theorem spares_ofDatum (d : Datum) : Spares w₀ (ofDatum d) fun _ => True := by
  have anchoring (kind : HandleKind) (r : Ref) : Spares w₀ (anchored kind r) fun _ => True := by
    intro w sound alike
    refine ⟨trivial, Op.Permitted.sound (o := .anchor r) trivial sound, ?_⟩
    exact fun _ _ => ⟨trivial, alike.trans (.anchor w r)⟩
  cases d with
  | nil | bool | int | float | text => exact .pure trivial
  | table r | function r | thread r | userdata r => exact anchoring _ r
  | failure => exact .throw _

end Value

namespace TableOps

open ScriptBridge.Action (Spares)

variable {w₀ : World}

/-- To read a member that a table itself has runs no code of scripts. -/
theorem spares_get {r : Ref} {i : Int64} (present : (w₀.tableAt r).get (.int i) ≠ .nil) :
    Spares w₀ (get r (.int i)) fun _ => True := by
  refine .operation (.bind (P := fun d => d = .int i) ?_ ?_)
  · refine .of_view fun w _ => .ofExcept fun d made => ?_
    exact (Except.ok.inj made).symm
  · rintro _ rfl
    refine .bind (P := fun _ => True) ?_ fun data _ => Value.spares_ofDatum _
    intro w sound alike
    refine ⟨by simp [Request.Permitted, Task.refs], fun f w' sound' => ?_, ?_⟩
    · exact ⟨sound', fun _ none => by simp at none⟩
    · intro outcome w' sound' promised
      obtain rfl := promised.2 r (.int i) rfl (by rw [alike.tableAt]; exact present)
      cases outcome with
      | ok data => exact Spares.pure (P := fun _ => True) trivial _ sound' alike
      | error e => exact Spares.throw (P := fun _ => True) _ _ sound' alike

end TableOps

end ScriptBridge
