import ScriptBridge.Host.Marshal
import ScriptBridge.Proofs.Alike

/-!
Host objects and host values on their way into a state and out of it. An object that has no wrapper
in a state gets one that may be remembered; arguments are taken out of a state without running
scripts.
-/

namespace ScriptBridge

open ScriptBridge.Action (Meets Respects Safe Spares)
open Script (Cell Datum)

/-- A new userdata for a native object: the world is as after putting it into the heap. -/
theorem meets_wrapNativeId (s : StateId) (n : NativeId) {w : World} (sound : w.Sound) :
    (wrapNativeId s n).Meets (fun result w' => w'.Sound ∧
      (w.allocate s (.native n)).2.Alike w' ∧
        ∃ a, result = .ok (.handle ⟨.userdata, (w.allocate s (.native n)).1, a⟩)) w := by
  obtain ⟨place, entered⟩ := (World.Alike.enter (.operation s) w).allocate s (.native n)
  have allowed (w : World) : (Op.allocate s (.native n)).Allowed w := by
    simp [Op.Allowed, Op.Permitted, Cell.refs]
  have sound₁ := (allowed _).permitted.sound (sound.enter (.operation s))
  have anchored (r : Ref) := Op.Permitted.sound (o := .anchor r) trivial sound₁
  refine ⟨allowed _, trivial, (anchored _).exit _ _, ?_⟩
  refine ⟨(entered.trans (.anchor _ _)).trans (.exit _ _ _), ?_⟩
  simp only [Op.apply, place]
  exact ⟨_, rfl⟩

theorem safe_wrapNativeId (s : StateId) (n : NativeId) : (wrapNativeId s n).Safe := by
  intro w sound
  exact (meets_wrapNativeId s n sound).mono fun _ _ after => ⟨after.1, fun _ _ => trivial⟩

theorem safe_wrapNative (s : StateId) {native : Native} (plain : ¬ native.IsWrapper) :
    (wrapNative s native).Safe :=
  .bind (.act fun _ _ => plain) fun n _ => safe_wrapNativeId s n

namespace World

theorem engine?_allocate (w : World) (s : StateId) (cell : Cell) :
    (w.allocate s cell).2.engine? s =
      (w.engine? s).map fun e => { e with heap := e.heap.add cell } := by
  simp [allocate, engine?_modifyEngine]

/-- What is put into the heap of an open state is there. -/
theorem cell?_allocate {w : World} {s : StateId} (isOpen : w.isOpen s) (cell : Cell) :
    (w.allocate s cell).2.cell? (w.allocate s cell).1 = some cell := by
  obtain ⟨e, engine⟩ := Option.isSome_iff_exists.mp isOpen
  have place : (w.allocate s cell).1 = ⟨s, e.heap.next⟩ := by
    simp [allocate, engine]
  simp [cell?, place, engine?_allocate, engine, Store.get?_add]

/-- After a wrapper has been made for an object that has none in a state, it may be remembered. -/
theorem mayCache_of_none {w : World} (sound : w.Sound) {s : StateId} {o : ObjectId}
    (unwrapped : w.wrapperOf? s o = none) (ownership : Ownership) :
    let made := w.newWrapper o ownership
    (made.2.allocate s (.native made.1)).2.MayCache s o (made.2.allocate s (.native made.1)).1 := by
  intro made
  have engines (t : StateId) : made.2.engine? t = w.engine? t := rfl
  refine ⟨rfl, fun isOpen => ?_, ?_⟩
  · have opened : made.2.isOpen s := by
      simpa [World.isOpen, engine?_allocate] using isOpen
    exact ⟨made.1, _, ownership, cell?_allocate opened _, (Store.get?_add ..).trans (if_pos rfl)⟩
  · cases engine : w.engine? s with
    | none => simp [wrapperOf?, engine?_allocate, engines, engine]
    | some e =>
      cases remembered : e.wrappers.find? (·.1 == o) with
      | none => simp [wrapperOf?, engine?_allocate, engines, engine, remembered]
      | some entry =>
        obtain ⟨o', r⟩ := entry
        have member := List.mem_of_find?_eq_some remembered
        have own : r.owner = s := (sound.isolated s e engine).wrappers _ member
        obtain ⟨small, old⟩ := sound.cached s e o' r engine member
        have before : w.cell? r = e.heap.get? r.index := by simp [cell?, own, engine]
        have cell : (made.2.allocate s (.native made.1)).2.cell? r = e.heap.get? r.index := by
          simp [cell?, own, engine?_allocate, engines, engine, Store.get?_add, Nat.ne_of_lt small]
        have native (n : NativeId) (inside : e.heap.get? r.index = some (.native n)) :
            (made.2.allocate s (.native made.1)).2.native? n = w.native? n :=
          (Store.get?_add ..).trans (if_neg (Nat.ne_of_lt (old n inside)))
        simp only [wrapperOf?, engine, remembered, before, Option.bind_eq_bind, Option.bind_some]
          at unwrapped
        simp only [wrapperOf?, cell, engine?_allocate, engines, engine, remembered,
          Option.bind_eq_bind, Option.map_some, Option.bind_some]
        split
        · rename_i n inside
          rw [inside] at unwrapped
          rw [native n inside]
          exact unwrapped
        · rfl

end World

/-- Wrapping an object remembers only wrappers that may be remembered. -/
theorem safe_wrapObject (s : StateId) (o : ObjectId) (ownership : Ownership) :
    (wrapObject s o ownership).Safe := by
  refine .operation fun w sound => ?_
  rw [Meets.view_iff]
  cases found : w.wrapperOf? s o with
  | some r => exact (Value.respects_anchored .userdata r).safe w sound
  | none =>
    refine Meets.perform_iff.mpr ⟨trivial, ?_⟩
    have sound₁ := Op.Permitted.sound (o := .newWrapper o ownership) trivial sound
    rw [Meets.bind_iff]
    refine (meets_wrapNativeId s _ sound₁).mono ?_
    rintro _ w' ⟨sound', alike, a, rfl⟩
    have may := alike.mayCache (World.mayCache_of_none sound found ownership)
    exact ⟨may, Op.Permitted.sound (o := .cacheWrapper s o _) may sound', fun _ _ => trivial⟩

namespace Script.Table

/-- What a sequence is counted to have is there. -/
theorem find_of_count {n j : Nat} {entries : List (Datum × Datum)} (reached : n ≤ j)
    (short : j < count n entries) : find (.int (Int64.ofNat (j + 1))) entries ≠ .nil := by
  induction entries generalizing n with
  | nil =>
    simp only [count] at short
    omega
  | cons entry rest ih =>
    obtain ⟨k, v⟩ := entry
    simp only [count] at short
    split at short
    · rename_i next
      simp only [Bool.and_eq_true, decide_eq_true_eq, Bool.not_eq_true'] at next
      obtain ⟨rfl, present⟩ := next
      simp only [find]
      split
      · rintro rfl
        simp [Datum.isNil] at present
      · rename_i other
        refine ih (Nat.lt_of_le_of_ne reached ?_) short
        rintro rfl
        exact other rfl
    · omega

theorem get_of_lt_length {t : Table} {k : Nat} (small : k < t.length) :
    t.get (.int (Int64.ofNat (k + 1))) ≠ .nil :=
  find_of_count (Nat.zero_le k) small

end Script.Table

namespace HostType

variable (w₀ : World)

theorem spares_items (r : Ref) : Spares w₀ (items r) fun _ => True := by
  refine .bind (P := fun length => length = (w₀.tableAt r).length) ?_ ?_
  · refine .operation fun w sound alike => ⟨trivial, sound, ?_⟩
    rintro _ ⟨⟩
    exact ⟨congrArg Script.Table.length (alike.tableAt r), alike⟩
  · rintro _ rfl
    refine .mapM fun k member => ?_
    have present := Script.Table.get_of_lt_length (List.mem_range.mp member)
    exact .bind (TableOps.spares_get present) fun _ _ => .pure trivial

/-- Taking an argument out of a state leaves the world alike. -/
theorem spares_fromValue (t : HostType) (v : Value) : Spares w₀ (t.fromValue v) fun _ => True := by
  cases t with
  | void | variant => exact .pure trivial
  | bool =>
    simp only [fromValue]
    split
    · exact .pure trivial
    · exact .pure trivial
    · exact .throw _
  | int | double | string =>
    exact .bind (.ofExcept fun _ _ => trivial) fun _ _ => .pure trivial
  | object | native =>
    simp only [fromValue]
    split
    · exact .pure trivial
    · refine .of_view fun w _ => ?_
      split
      · exact .pure trivial
      · exact .throw _
  | list =>
    simp only [fromValue]
    split
    · refine .bind (P := fun _ => True) (.of_view fun _ _ => .ofExcept fun _ _ => trivial) ?_
      exact fun _ _ => .bind (spares_items w₀ _) fun _ _ => .pure trivial
    · exact .throw _

end HostType

theorem spares_marshalArgs (w₀ : World) (params : List HostType) (args : List Value) :
    Spares w₀ (marshalArgs params args) fun _ => True :=
  .mapM fun (t, v) _ => t.spares_fromValue w₀ v

/-- What leaves every world alike keeps engines apart. -/
theorem Action.Spares.safe {a : Action α} {P : α → Prop} (spares : ∀ w₀, Spares w₀ a P) :
    a.Safe := by
  intro w sound
  exact (spares w w sound (.refl w)).mono fun _ _ after => ⟨after.1, fun _ _ => trivial⟩

theorem safe_marshalArgs (params : List HostType) (args : List Value) :
    (marshalArgs params args).Safe :=
  Spares.safe fun w₀ => spares_marshalArgs w₀ params args

namespace HostValue

mutual

theorem safe_toValue (s : StateId) : (v : HostValue) → (v.toValue s).Safe
  | .void | .bool _ | .int _ | .double _ | .text _ | .object none | .native none | .variant _ => by
    simp only [toValue]
    exact .pure trivial
  | .object (some o) => by
    simp only [toValue]
    exact safe_wrapObject s o .native
  | .native (some n) => by
    simp only [toValue]
    exact safe_wrapNativeId s n
  | .list items => by
    simp only [toValue]
    refine .bind (TableOps.respects_newTable s) ?_
    rintro _ ⟨r, a, -, rfl⟩
    exact .bind (safe_fillTable s r 1 items) fun _ _ => .pure trivial

theorem safe_fillTable (s : StateId) (r : Ref) (position : Nat) :
    (items : List HostValue) → (fillTable s r position items).Safe
  | [] => by
    simp only [fillTable]
    exact .pure trivial
  | item :: items => by
    simp only [fillTable]
    refine .bind (safe_toValue s item) fun v _ => ?_
    exact .bind (TableOps.safe_set r _ v) fun _ _ => safe_fillTable s r (position + 1) items

end

end HostValue

end ScriptBridge
