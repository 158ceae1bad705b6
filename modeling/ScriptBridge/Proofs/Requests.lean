import ScriptBridge.Proofs.Passage
import ScriptBridge.Proofs.Steps

/-!
Every request is carried out by a program that keeps engines apart and gives what it promises.
-/

namespace ScriptBridge

open ScriptBridge.Action (Gives Meets Respects Safe)
open Script (Datum Machine OwnedData Results)

namespace Script

/-- To read what a table itself holds takes a look at the world and nothing else. -/
theorem meets_readMember {w : World} {s : StateId} {r : Ref} {key : Datum}
    (held : (w.tableAt r).get key ≠ .nil) {Q : Except Fault Outcome → World → Prop}
    (found : Q (.ok (.ok [(w.tableAt r).get key])) w)
    (closed : Q (.ok (.error (.bridge .stateClosed))) w) :
    (runPrepared s fun m => m.index (.table r) key none none).Meets Q w := by
  have present : ((w.tableAt r).get key).isNil = false := by
    cases same : (w.tableAt r).get key with
    | nil => exact absurd same held
    | _ => rfl
  obtain ⟨links, chain⟩ : ∃ n, Machine.chainLimit = n + 1 := ⟨1999, rfl⟩
  obtain ⟨steps, limit⟩ : ∃ n, stepLimit = n + 1 := ⟨49999999, rfl⟩
  refine Meets.view_iff.mpr ?_
  cases (w.engine? s).map (·.running) with
  | none => exact closed
  | some thread =>
    refine Meets.bind_iff.mpr ?_
    simp only [Machine.index, chain, Machine.indexTo]
    refine Meets.view_iff.mpr ?_
    simp only [present, Bool.not_false, if_true, limit]
    exact found

end Script

namespace Connection

/-- A signal reaches a script in its own state and a slot of an object that is alive. -/
theorem safe_deliver (c : Connection) (sender : ObjectId) (args : List HostValue) :
    (c.deliver sender args).Safe := by
  unfold deliver
  split
  · rename_i s callable _
    refine .of_view fun w _ => ?_
    split
    · refine .bind (safe_wrapObject s sender .native) fun object _ => ?_
      refine .bind (Respects.mapM (Q := fun _ => True) fun v _ => HostValue.safe_toValue s v) ?_
      exact fun values _ => .discard (Value.safe_call callable _)
    · exact .throw _
  · rename_i target signature body arity _
    intro w sound
    refine Meets.view_iff.mpr ?_
    split
    · exact Respects.pure trivial w sound
    · rename_i alive
      have running := meets_run sound (by simpa using alive) signature body (args.take arity)
      refine Meets.bind_iff.mpr (running.mono ?_)
      rintro (f | result) w' ⟨sound', -⟩
      · exact Action.gives_error.mpr sound'
      · exact Action.gives_ok.mpr ⟨sound', trivial⟩

end Connection

namespace Request

theorem meets_script {s : StateId} {task : Task} {w : World} (sound : w.Sound)
    (own : Owned s task.refs) :
    (Script.runTask s task).Meets (fun result w' => w'.Sound ∧
      ∀ outcome, result = .ok outcome → (Request.script s task).Promises w outcome w') w := by
  have gives := Script.respects_task own w sound
  by_cases reads : ∃ r key, task = .index (.table r) key ∧ (w.tableAt r).get key ≠ .nil
  · obtain ⟨r, key, rfl, held⟩ := reads
    refine Script.meets_readMember held ⟨sound, ?_⟩ ⟨sound, ?_⟩
    · rintro _ ⟨⟩
      refine ⟨?_, fun _ _ _ _ => rfl⟩
      rintro _ ⟨⟩
      have ownTable : r.owner = s := (Owned.cons_iff.mp own).1
      have ownMember := Script.Table.get_owned (sound.isolated.tableAt_owned r) key
      exact OwnedData.cons_iff.mpr ⟨ownTable ▸ ownMember, .nil⟩
    · rintro _ ⟨⟩
      exact ⟨Results.error _, fun _ _ _ _ => rfl⟩
  · refine gives.mono ?_
    rintro result w' ⟨sound', results⟩
    refine ⟨sound', fun outcome same => ⟨results outcome same, fun r key reading held => ?_⟩⟩
    exact absurd ⟨r, key, reading, held⟩ reads

/-- The programs that carry out requests keep their promises. -/
theorem kept : Request.Kept := by
  intro β r w sound permitted
  cases r with
  | script s task => exact meets_script sound permitted
  | deliver c sender args =>
    refine (c.safe_deliver sender args w sound).mono ?_
    exact fun _ _ after => ⟨after.1, fun _ _ => trivial⟩
  | destroy o =>
    refine (safe_destroyObject o w sound).mono ?_
    exact fun _ _ after => ⟨after.1, fun _ _ => trivial⟩
  | collect s => exact ⟨sound, fun _ _ => trivial⟩

end Request

/-- A program that keeps to what it may do leaves a trail of that, and ends as it has to. -/
theorem Action.Meets.trail {a : Action α} {Q : Except Fault α → World → Prop} {w w' : World}
    (meets : a.Meets Q w) (sound : w.Sound) {moments : List Moment}
    {outcome : Option (Except Fault α)} (runs : Runs a w moments outcome w') :
    Trail w moments w' ∧ ∀ result, outcome = some result → Q result w' :=
  runs.trail Request.kept State.safe_finalize sound meets

/-- A program that keeps to what is permitted goes through permitted moments only, and ends as it
has to. -/
theorem Action.Meets.passage {a : Action α} {Q : Except Fault α → World → Prop} {w w' : World}
    (meets : a.Meets Q w) (sound : w.Sound) {moments : List Moment}
    {outcome : Option (Except Fault α)} (runs : Runs a w moments outcome w') :
    Passage w moments w' ∧ ∀ result, outcome = some result → Q result w' :=
  (meets.trail sound runs).imp_left Trail.passage

end ScriptBridge
