import ScriptBridge.Native.Wrap
import ScriptBridge.Proofs.Contract
import ScriptBridge.Value.Table

/-!
Bridge values on their way into an engine and out of it: only what belongs to a state becomes data
of its engine.
-/

namespace ScriptBridge

open ScriptBridge.Action (Respects Safe)
open Script (Datum OwnedData)

theorem Handle.refs_datum (h : Handle) : h.datum.refs = [h.target] := by
  unfold datum
  split <;> rfl

namespace Value

theorem datum_owned {w : World} {s : StateId} {v : Value} {d : Datum} (made : v.datum w s = .ok d) :
    Owned s d.refs := by
  cases v with
  | handle h =>
    simp only [datum] at made
    split at made
    · simp at made
    · split at made
      · simp at made
      · rename_i same
        obtain rfl := Except.ok.inj made
        simpa [Handle.refs_datum, Handle.state] using same
  | _ =>
    obtain rfl := Except.ok.inj made
    simp

theorem respects_toDatum (s : StateId) (v : Value) :
    (v.toDatum s).Respects fun d => Owned s d.refs :=
  .of_view fun _ _ => .ofExcept fun _ made => datum_owned made

theorem respects_toData (s : StateId) (values : List Value) :
    (toData s values).Respects (OwnedData s) :=
  .mapM fun v _ => respects_toDatum s v

/-- A value for a place of a heap is a handle on it. -/
theorem respects_anchored (kind : HandleKind) (r : Ref) :
    (anchored kind r).Respects fun v => ∃ a, v = .handle ⟨kind, r, a⟩ :=
  .bind (.act fun _ _ => trivial) fun a _ => .pure ⟨a, rfl⟩

theorem safe_ofDatum (d : Datum) : (ofDatum d).Safe := by
  cases d with
  | nil | bool | int | float | text => exact .pure trivial
  | table r | function r | thread r | userdata r => exact (respects_anchored _ r).safe
  | failure => exact .throw _

theorem safe_ofData (data : List Datum) : (ofData data).Safe :=
  (Respects.mapM fun d _ => safe_ofDatum d).safe

end Value

theorem Handle.safe_checkOpen (h : Handle) : h.checkOpen.Safe :=
  .of_view fun _ _ => .ofExcept fun _ _ => trivial

/-- An engine that is given data of its own gives data of its own. -/
theorem respects_runTask {s : StateId} {task : Task} (own : Owned s task.refs) :
    (runTask s task).Respects (OwnedData s) := by
  refine .bind (P := fun outcome => ∀ data, outcome = .ok data → OwnedData s data)
    (.ask own fun _ _ _ promised => promised.1) fun outcome owned => ?_
  cases outcome with
  | ok data => exact .pure (owned data rfl)
  | error e => exact .throw _

namespace TableOps

theorem safe_setContent {r : Ref} {content : Script.Table} (own : Owned r.owner content.refs) :
    (setContent r content).Safe := by
  refine .of_view fun w ⟨isolated, _⟩ => .act fun _ _ => Owned.append_iff.mpr ⟨own, ?_⟩
  intro m member
  exact isolated.metatableAt_owned (Option.mem_toList.mp member)

theorem respects_newTable (s : StateId) :
    (newTable s).Respects fun v => ∃ r a, r.owner = s ∧ v = .handle ⟨.table, r, a⟩ := by
  refine .operation (.bind (P := fun r => r.owner = s) (.perform (fun _ _ => ?_) fun _ _ => rfl) ?_)
  · simp [Op.Allowed, Op.Permitted, Script.Cell.refs]
  · intro r own
    refine (Value.respects_anchored .table r).mono ?_
    rintro _ ⟨a, rfl⟩
    exact ⟨r, a, own, rfl⟩

theorem safe_get (r : Ref) (key : Value) : (get r key).Safe := by
  refine .operation (.bind (Value.respects_toDatum r.owner key) fun d own => ?_)
  refine .bind (respects_runTask (by simpa [Task.refs] using own)) fun data _ => ?_
  exact Value.safe_ofDatum _

theorem safe_set (r : Ref) (key value : Value) : (set r key value).Safe := by
  refine .operation (.bind (Value.respects_toDatum r.owner key) fun d own => ?_)
  refine .bind (Value.respects_toDatum r.owner value) fun v ownValue => ?_
  exact .discard (respects_runTask (by simpa [Task.refs] using ⟨own, ownValue⟩))

theorem safe_entries (table : Value) (r : Ref) : (entries table r).Safe := by
  refine .operation (.of_view fun w _ => (Respects.mapM (Q := fun _ => True) ?_).safe)
  rintro ⟨k, v⟩ _
  exact .bind (Value.safe_ofDatum k) fun _ _ => .bind (Value.safe_ofDatum v) fun _ _ =>
    .pure trivial

section Shifting

variable {s : StateId} {content : Script.Table} (own : Owned s content.refs)
include own

/-- A table whose entries are set one after another from what is in it or is the state's own. -/
private theorem foldl_owned {α : Type} (steps : List α) {f : Script.Table → α → Script.Table}
    (keeps : ∀ t a, Owned s t.refs → Owned s (f t a).refs) :
    Owned s (steps.foldl f content).refs := by
  induction steps generalizing content with
  | nil => exact own
  | cons a rest ih => exact ih (keeps content a own)

theorem shiftDown_owned (start length n : Int) :
    Owned s (shiftDown content start length n).refs := by
  refine foldl_owned own _ fun t k ownTable => Script.Table.set_owned ownTable (by simp [at_]) ?_
  split
  · exact Script.Table.get_owned ownTable _
  · simp

theorem shiftUp_owned (start length n : Int) : Owned s (shiftUp content start length n).refs :=
  foldl_owned own _ fun t _ ownTable =>
    Script.Table.set_owned ownTable (by simp [at_]) (Script.Table.get_owned ownTable _)

theorem fillFrom_owned (start n : Int) {fill : Datum} (ownFill : Owned s fill.refs) :
    Owned s (fillFrom content start n fill).refs :=
  foldl_owned own _ fun _ _ ownTable => Script.Table.set_owned ownTable (by simp [at_]) ownFill

end Shifting

theorem safe_shift (r : Ref) (start count : Int64) (fill : Value) :
    (shift r start count fill).Safe := by
  refine .operation (.of_view fun w ⟨isolated, _⟩ => ?_)
  have own := isolated.tableAt_owned r
  dsimp only
  split
  · exact .throw _
  · split
    · exact safe_setContent (shiftDown_owned own _ _ _)
    · split
      · split
        · exact .throw _
        · have moved := shiftUp_owned own start.toInt (w.tableAt r).length count.toInt
          refine .bind (safe_setContent moved) fun _ _ => ?_
          refine .bind (Value.respects_toDatum r.owner fill) fun d ownFill => ?_
          exact safe_setContent (fillFrom_owned moved _ _ ownFill)
      · exact .pure trivial

end TableOps

end ScriptBridge
