import ScriptBridge.Proofs.Evaluation
import ScriptBridge.Proofs.Standard
import ScriptBridge.Proofs.States
import ScriptBridge.Script.Run

/-!
One step keeps a machine within its state, hence so does every run of it, and the tasks of an engine
give only what belongs to the state that asks for them.
-/

namespace ScriptBridge.Script

open ScriptBridge.Action (Gives Meets Respects Safe)

/-- What native code gives to the engine of a state: data of that state, or a failure. -/
def Results (s : StateId) (result : Except EngineError (List Datum)) : Prop :=
  ∀ data, result = .ok data → OwnedData s data

namespace Results

variable {s : StateId}

theorem ok {data : List Datum} (own : OwnedData s data) : Results s (.ok data) := by
  rintro _ ⟨⟩
  exact own

theorem error (e : EngineError) : Results s (.error e) := fun _ none => by simp at none

end Results

section Callbacks

variable (s : StateId)

theorem safe_argumentOf (event : NativeEvent) (position : Nat) (d : Datum) :
    (argumentOf event position d).Safe := by
  cases d with
  | failure => exact .pure trivial
  | _ => exact .bind (Value.safe_ofDatum _) fun _ _ => .pure trivial

theorem respects_oneDatum (v : Value) : (oneDatum s v).Respects (Results s) :=
  .bind (Value.respects_toDatum s v) fun _ own => .pure (.ok (by simpa using own))

theorem respects_indexNative (native : Native) (key : Datum) :
    (indexNative s native key).Respects (Results s) := by
  refine .bind (safe_argumentOf _ _ key) fun converted _ => ?_
  split
  · exact .pure (.error _)
  · exact .bind (Native.safe_index s native _) fun v _ => respects_oneDatum s v

theorem respects_assignNative (n : NativeId) (native : Native) (key value : Datum) :
    (assignNative n native key value).Respects (Results s) := by
  refine .bind (safe_argumentOf _ _ key) fun converted _ => ?_
  split
  · exact .pure (.error _)
  · refine .bind (safe_argumentOf _ _ value) fun converted _ => ?_
    split
    · exact .pure (.error _)
    · exact .bind (Native.safe_assign n native _ _) fun _ _ => .pure (.ok (by simp))

theorem respects_operateNative (op : Operator) (left right : Datum) :
    (operateNative s op left right).Respects (Results s) := by
  refine .bind (safe_argumentOf _ _ left) fun converted _ => ?_
  split
  · exact .pure (.error _)
  · refine .bind (safe_argumentOf _ _ right) fun converted _ => ?_
    split
    · exact .pure (.error _)
    · exact .bind (Native.safe_dispatch s op _ _) fun v _ => respects_oneDatum s v

theorem respects_runMember (event : NativeEvent) (args : List Datum) :
    (runMember s event args).Respects (Results s) := by
  unfold runMember
  dsimp only
  split
  · exact respects_operateNative s _ _ _
  · refine .of_view fun w _ => ?_
    split
    · exact .pure (.error _)
    · split
      · exact respects_indexNative s _ _
      · exact respects_assignNative s _ _ _ _
      · refine .bind (Value.safe_ofData _) fun values _ => ?_
        refine .bind (Native.safe_call s _ values) fun results _ => ?_
        exact .bind (Value.respects_toData s results) fun data own => .pure (.ok own)
      · exact .bind (Native.safe_measure _) fun _ _ => .pure (.ok (by simp))
      · exact .of_view fun _ _ => .pure (.ok (by simp))
      · exact respects_operateNative s _ _ _

theorem respects_runHost (f : HostFunction) (args : List Datum) :
    (runHost s f args).Respects (Results s) := by
  refine .bind (Value.safe_ofData args) fun values _ => ?_
  refine .bind (HostFunction.safe_run s f values) fun results _ => ?_
  exact .bind (Value.respects_toData s results) fun data own => .pure (.ok own)

end Callbacks

namespace Machine

/-- A coroutine of a state gets to where only references of the state are held. -/
theorem respects_setProgress {s : StateId} {r : Ref} (ownRef : r.owner = s) {progress : Progress}
    (own : Owned s progress.refs) (begun : ∀ body, progress ≠ .fresh body) :
    (updateThread r fun t => { t with progress := progress }).Safe := by
  subst ownRef
  exact respects_updateThread r (.onto begun) fun _ _ => own

/-- What a step leads to: a machine within the state, or the end of the task with data of it. -/
def Leads (s : StateId) : Next → Prop
  | .continue m => m.Within s
  | .done outcome => Results s outcome

variable {s : StateId} {m : Machine} (within : m.Within s)

theorem respects_withPlace (m : Machine) (lines : List String) {body : Action CallbackResult}
    (gives : body.Respects (Results s)) :
    (m.withPlace lines body).Respects fun pair => Results s pair.1 := by
  refine .bind (P := fun _ => True) (.act fun _ _ => trivial) fun pooled _ => ?_
  refine .bind (respects_updateThread _ (.waits · _) fun _ own => own) fun _ _ => ?_
  refine .bind (Respects.attempt gives) fun result holds => .of_view fun w _ => ?_
  refine .bind (respects_updateThread _ (.waits · _) fun _ own => own) fun _ _ => .pure ?_
  cases result with
  | ok result => exact holds result rfl
  | error e => exact .error _

include within

theorem respects_callNative (form : CallForm) {body : Action CallbackResult}
    (gives : body.Respects (Results s)) : (m.callNative form body).Respects (Within s) := by
  refine .of_view fun w _ => ?_
  refine .bind (respects_withPlace m _ gives) fun pair holds => ?_
  split
  · refine .bind (P := fun _ => True) (.act fun _ _ => trivial) fun _ _ => ?_
    exact .pure (within.give (holds _ rfl))
  · exact .pure (within.raise _ (by simp))

theorem respects_enter {c : Closure} (own : Owned s (Cell.closure c).refs) {args : List Datum}
    (ownArgs : OwnedData s args) (form : CallForm) :
    (m.enter c args form).Respects (Within s) := by
  have ownOuter : Owned s
      (Env.refs { vars := c.vars, varargs := args.drop c.body.params.length, chunk := c.chunk }) :=
    Env.owned_iff.mpr ⟨fun v member => own v.2 (List.mem_map_of_mem member), ownArgs.drop _⟩
  refine .bind (respects_declare within ownOuter _ ownArgs) fun env ownEnv => .pure ?_
  refine { within with control := ownEnv, konts := ?_ }
  dsimp only
  split
  · rename_i caller title rest _ below
    intro k member
    rcases List.mem_cons.mp member with rfl | member
    · simp [Kont.refs]
    · have kept := List.mem_cons_of_mem (Kont.activation caller title) member
      rw [← below] at kept
      exact within.konts k ((List.dropWhile_sublist _).mem kept)
  · intro k member
    rcases List.mem_cons.mp member with rfl | member
    · simp [Kont.refs]
    · exact within.konts k member

theorem respects_enterCall {f : Callee} (own : Owned s f.refs) {args : List Datum}
    (ownArgs : OwnedData s args) (form : CallForm) :
    (m.enterCall f args form).Respects (Within s) := by
  have members (event : NativeEvent) :
      (m.callNative form (runMember m.state event args)).Respects (Within s) := by
    rw [within.state]
    exact respects_callNative within form (respects_runMember s event args)
  cases f with
  | member event => exact members event
  | datum d =>
    refine .bind (P := fun found => ∀ cell, found = some cell → Owned s cell.refs) (.view ?_) ?_
    · rintro w ⟨isolated, _⟩ cell found
      cases d with
      | function r =>
        have same : r.owner = s := by simpa [Callee.refs] using own
        exact same ▸ isolated.cell_owned found
      | _ => simp at found
    · intro cell ownCell
      split
      · exact respects_enter within (ownCell _ rfl) ownArgs form
      · rw [within.state]
        exact respects_callNative within form (respects_runHost s _ args)
      · exact members _
      · exact (keeps_runStandard within (ownCell _ rfl) ownArgs form).finish
      · refine .bind (respects_metamethod within own _) fun found ownFound => ?_
        split
        · exact .pure (within.call form (ownFound _ rfl) (by simpa using ⟨own, ownArgs⟩))
        · exact respects_failOn within _ _ _ _

theorem respects_deliver {k : Kont} (own : Owned s k.refs) {values : List Datum}
    (ownValues : OwnedData s values) : (m.deliver k values).Respects (Within s) := by
  have ownFirst : Owned s (first values).refs := ownValues.headD
  have one : OwnedData s [first values] := OwnedData.cons_iff.mpr ⟨ownFirst, .nil⟩
  cases k with
  | gather done rest env use =>
    obtain ⟨ownDone, ownEnv⟩ := Owned.append_iff.mp own
    cases rest with
    | nil =>
      have ownAll := (owned_refsOf.mp ownDone).reverse
      exact respects_finish within ownEnv use (OwnedData.append_iff.mpr ⟨ownAll, ownValues⟩)
    | cons e rest =>
      refine .pure ((within.push ?_).evaluate e ownEnv)
      have ownMore := OwnedData.cons_iff.mpr ⟨ownFirst, owned_refsOf.mp ownDone⟩
      exact Owned.append_iff.mpr ⟨owned_refsOf.mpr ownMore, ownEnv⟩
  | choose isAnd right env =>
    simp only [deliver]
    split
    · exact .pure ((within.push (by simp [Kont.refs])).evaluate right own)
    · exact .pure (within.give one)
  | single => exact .pure (within.give one)
  | truth negated => exact .pure (within.give (by simp))
  | methodFound object name args env line isTail =>
    obtain ⟨ownObject, ownEnv⟩ := Owned.append_iff.mp own
    cases args with
    | nil =>
      have ownBoth : OwnedData s [first values, object] :=
        OwnedData.cons_iff.mpr ⟨ownFirst, by simpa using ownObject⟩
      exact respects_finish within ownEnv (.call (some ⟨"method", name⟩) line isTail) ownBoth
    | cons e rest =>
      refine .pure ((within.push (Owned.append_iff.mpr ⟨?_, ownEnv⟩)).evaluate e ownEnv)
      exact owned_refsOf.mpr (OwnedData.cons_iff.mpr ⟨ownObject, one⟩)
  | stores pending env line =>
    obtain ⟨ownPending, ownEnv⟩ := Owned.append_iff.mp own
    refine respects_store within ownEnv (fun p v member => ?_) line
    exact Owned.append_iff.mp (Owned.flatMap_iff.mp ownPending _ member)
  | block rest env => exact .pure (within.execute rest own)
  | loop body env => exact .pure ((within.push (k := .loop body env) own).execute body own)
  | integers name current left step body env =>
    cases left with
    | zero => exact .pure (within.give (by simp))
    | succ n => exact respects_runIntegers within own _ _ _ _ _
  | floats name current limit step body env => exact respects_runFloats within own _ _ _ _ _
  | iterations names f state control body env line =>
    simp only [Kont.refs, Owned.append_iff] at own
    obtain ⟨⟨⟨ownF, ownState⟩, ownControl⟩, ownEnv⟩ := own
    exact .pure (within_iterate within ownEnv _ ownF ownState ownControl _ _)
  | iterator names f state body env line =>
    simp only [Kont.refs, Owned.append_iff] at own
    obtain ⟨⟨ownF, ownState⟩, ownEnv⟩ := own
    simp only [deliver]
    split
    · exact .pure (within.give (by simp))
    · refine .bind (respects_declare within ownEnv names ownValues) fun inner ownInner => ?_
      refine .pure ((within.push ?_).execute body ownInner)
      simpa only [Kont.refs, Owned.append_iff] using ⟨⟨⟨ownF, ownState⟩, ownFirst⟩, ownEnv⟩
  | activation | builtin | report => exact .pure (within.give ownValues)
  | protectedCall | handledCall => exact .pure (within.give (by simpa using ownValues))
  | handling =>
    exact .pure (within.give (OwnedData.cons_iff.mpr ⟨by simp, one⟩))
  | text caller =>
    simp only [deliver]
    split
    · exact .pure (within.give (by simp))
    · exact .pure (within.fail _ _)
  | printing done rest =>
    cases rest with
    | nil =>
      exact .bind (P := fun _ => True) (.act fun _ _ => trivial) fun _ _ =>
        .pure (within.give (by simp))
    | cons d rest =>
      obtain ⟨ownNext, ownRest⟩ := OwnedData.cons_iff.mp (owned_refsOf.mp own)
      have waiting := within.push (k := .printing (((first values).asText.getD []) :: done) rest)
        (owned_refsOf.mpr ownRest)
      exact respects_showDatum waiting _ ownNext
  | triple =>
    have ownPadded : OwnedData s (values ++ List.replicate 3 Datum.nil) := by
      refine OwnedData.append_iff.mpr ⟨ownValues, fun d member => ?_⟩
      simp [List.eq_of_mem_replicate member]
    exact .pure (within.give (ownPadded.take 3))
  | ipairsValue i =>
    refine .pure (within.give ?_)
    split
    · simp
    · exact OwnedData.cons_iff.mpr ⟨by simp, one⟩
  | resumed wrapped caller =>
    refine .pure (within.give ?_)
    split
    · exact ownValues
    · simpa using ownValues

/-- What a machine within a state hands over to is within the state. -/
theorem respects_handOver {progress : Progress} (own : Owned s progress.refs)
    (begun : ∀ body, progress ≠ .fresh body) {caller : Ref}
    {konts : List Kont} {callers : List (Ref × List Kont)}
    (waiting : m.callers = (caller, konts) :: callers) :
    (m.handOver progress caller konts callers).Respects (Within s) := by
  have ownCaller := within.callers (caller, konts) (by simp [waiting])
  refine .bind (respects_setProgress within.thread own begun) fun _ _ => ?_
  refine .bind (respects_updateThread caller (.waits · _) fun _ own => own) fun _ _ => ?_
  refine .bind (P := fun _ => True) (.act fun _ _ => ?_) fun _ _ => .pure ?_
  · exact ownCaller.1.trans within.state.symm
  · refine { within with thread := ownCaller.1, konts := ownCaller.2, callers := ?_ }
    intro entry member
    exact within.callers entry (by simp [waiting, member])

theorem respects_endTask {progress : Progress} (own : Owned s progress.refs)
    (begun : ∀ body, progress ≠ .fresh body) {outcome : Outcome} (results : Results s outcome) : (m.endTask progress outcome).Respects (Leads s) := by
  unfold endTask
  split
  · exact .bind (respects_setProgress within.thread own begun) fun _ _ => .pure results
  · exact .pure results

theorem respects_complete {progress : Progress} (own : Owned s progress.refs)
    (begun : ∀ body, progress ≠ .fresh body) {values : List Datum} (ownValues : OwnedData s values) :
    (m.complete progress values).Respects (Leads s) := by
  unfold complete
  split
  · exact respects_endTask within own begun (.ok ownValues)
  · rename_i caller konts callers waiting
    refine .bind (respects_handOver within own begun waiting) fun m within => ?_
    exact .pure (within.give ownValues)

theorem within_receiveFailure {e : Datum} (own : Owned s e.refs) :
    (m.receiveFailure e).Within s := by
  have below {k : Kont} {rest : List Kont} (same : m.konts = k :: rest) :
      { m with konts := rest }.Within s :=
    within.with_konts fun k member => within.konts k (by simp [same, member])
  unfold receiveFailure
  split
  · rename_i same
    exact (below same).give (by simpa using own)
  · rename_i same
    refine (below same).raise _ ?_
    split
    · simp
    · exact own
  · exact within.raise none own

theorem respects_uncaught {e : Datum} (own : Owned s e.refs) (site : Option Site) :
    (m.uncaught e site).Respects (Leads s) := by
  unfold uncaught
  split
  · rename_i caller konts callers waiting
    refine .bind (respects_handOver within ?_ (by simp) waiting) fun m within => ?_
    · dsimp only [Progress.refs]
      split
      · split
        · simp
        · simpa using own
      · simpa using own
    · exact .pure (within_receiveFailure within own)
  · split
    · exact respects_endTask within (by simp [Progress.refs]) (by simp) (.error _)
    · refine .of_view fun w _ => ?_
      have reporting : { m with konts := [.report (traceText (m.traceLines w site))] }.Within s :=
        within.with_konts (by simp [Kont.refs])
      exact .map (respects_showDatum reporting none own) fun _ within => within

theorem respects_catchFailure {e : Datum} (own : Owned s e.refs) (site : Option Site) :
    (m.catchFailure e site).Respects (Leads s) := by
  have inner {k : Kont} {rest : List Kont}
      (found : m.konts.dropWhile (!·.catches) = k :: rest) :
      Owned s k.refs ∧ { m with konts := rest }.Within s := by
    have kept (k' : Kont) (member : k' ∈ k :: rest) : Owned s k'.refs := by
      rw [← found] at member
      exact within.konts k' ((List.dropWhile_sublist _).mem member)
    exact ⟨kept k (by simp), within.with_konts fun k' member => kept k' (by simp [member])⟩
  have handling {handler : Datum} {rest : List Kont} {left : Nat} {caller : Option Site}
      (ownHandler : Owned s handler.refs) (below : { m with konts := rest }.Within s) :
      ({ m with konts := .handling handler left caller :: rest }.call (.datum handler) [e]
        {}).Within s :=
    (below.push (k := .handling handler left caller) ownHandler).call _ ownHandler
      (by simpa using own)
  unfold catchFailure
  split
  · rename_i found
    exact .pure ((inner found).2.give (by simpa using own))
  · rename_i found
    exact .pure (handling (inner found).1 (inner found).2)
  · rename_i found
    exact .pure (handling (inner found).1 (inner found).2)
  · rename_i found
    exact .pure ((inner found).2.give (by simp))
  · exact respects_uncaught within own site

/-- A step of a machine within a state leads to one within the state or to data of the state. -/
theorem respects_step : m.step.Respects (Leads s) := by
  have own := within.control
  have going {a : Action Machine} (respects : a.Respects (Within s)) :
      (Next.continue <$> a).Respects (Leads s) :=
    .map respects fun _ within => within
  have above {p : Kont → Bool} :
      { m with konts := (m.konts.dropWhile p).drop 1 }.Within s :=
    within.with_konts fun k member =>
      within.konts k ((List.dropWhile_sublist _).mem (List.mem_of_mem_drop member))
  unfold step
  split
  all_goals rename_i same; rw [same] at own
  · exact going (respects_evaluateExpr within own _)
  · exact .pure (within.give (by simp))
  · exact going (respects_executeStmt within own _ _)
  · have ownValues := owned_refsOf.mp own
    split
    · exact respects_complete within (by simp [Progress.refs]) (by simp) ownValues
    · exact respects_endTask within (by simp [Progress.refs]) (by simp) (.error _)
    · rename_i k rest konts _
      have ownKonts := within.konts
      rw [konts] at ownKonts
      refine going (respects_deliver ?_ (ownKonts k (by simp)) ownValues)
      exact within.with_konts fun k' member => ownKonts k' (by simp [member])
  · exact .pure (above.give (by simp))
  · exact .pure (above.give (owned_refsOf.mp own))
  · obtain ⟨ownF, ownArgs⟩ := Owned.append_iff.mp own
    exact going (respects_enterCall within ownF (owned_refsOf.mp ownArgs) _)
  · exact respects_catchFailure within own _
  · refine respects_complete within ?_ (by simp) (owned_refsOf.mp own)
    exact Owned.flatMap_iff.mpr within.konts

/-- Every run of a machine within a state gives only data of the state. -/
theorem respects_run (n : Nat) : (run n m).Respects (Results s) := by
  induction n generalizing m with
  | zero => exact .fail _
  | succ n ih =>
    refine .bind (respects_step within) fun next leads => ?_
    cases next with
    | done outcome => exact .pure leads
    | «continue» m => exact ih leads

end Machine

section Tasks

variable {s : StateId}

theorem respects_running (s : StateId) :
    (Action.view fun w => (w.engine? s).map (·.running)).Respects
      fun found => ∀ thread, found = some thread → thread.owner = s := by
  refine .view fun w ⟨isolated, _⟩ thread found => ?_
  obtain ⟨e, engine, rfl⟩ := Option.map_eq_some_iff.mp found
  exact isolated.running engine

theorem respects_startHere {control : Control} (own : Owned s control.refs) :
    (startHere s control).Respects (Results s) := by
  refine .bind (respects_running s) fun found ownThread => ?_
  split
  · rename_i thread
    have within : Machine.Within s { state := s, thread := thread, control := control } :=
      ⟨rfl, ownThread thread rfl, own, by simp, by simp⟩
    exact Machine.respects_run within _
  · exact .pure (.error _)

theorem respects_runPrepared {prepare : Machine → Action Machine}
    (prepares : ∀ m : Machine, m.Within s → (prepare m).Respects (Machine.Within s)) :
    (runPrepared s prepare).Respects (Results s) := by
  refine .bind (respects_running s) fun found ownThread => ?_
  split
  · rename_i thread
    refine .bind (prepares _ ?_) fun m within => Machine.respects_run within _
    exact ⟨rfl, ownThread thread rfl, by simp [Control.refs, refsOf], by simp, by simp⟩
  · exact .pure (.error _)

theorem respects_resumeAt {r : Ref} (ownRef : r.owner = s) {konts : List Kont}
    (ownKonts : ∀ k ∈ konts, Owned s k.refs) {control : Control} (own : Owned s control.refs) :
    (resumeAt s r konts control).Respects (Results s) := by
  have before : (Action.view fun w => ((w.engine? s).map (·.running)).getD r).Respects
      fun thread => thread.owner = s := by
    refine .view fun w ⟨isolated, _⟩ => ?_
    cases engine : w.engine? s with
    | none => exact ownRef
    | some e => exact isolated.running engine
  refine .bind before fun previous ownPrevious => ?_
  refine .bind (respects_updateThread r (.onto (by simp)) (by simp [Progress.refs])) fun _ _ => ?_
  refine .bind (P := fun _ => True) (.act fun _ _ => ownRef) fun _ _ => ?_
  refine .bind (Machine.respects_run ⟨rfl, ownRef, own, ownKonts, by simp⟩ _) ?_
  intro outcome results
  exact .bind (P := fun _ => True) (.act fun _ _ => ownPrevious) fun _ _ => .pure results

theorem respects_resume {r : Ref} (ownRef : r.owner = s) {args : List Datum}
    (ownArgs : OwnedData s args) : (resume s r args).Respects (Results s) := by
  refine .bind (respects_progressOf ownRef) fun progress ownProgress => ?_
  split
  · have ownBody := ownProgress _ rfl
    exact respects_resumeAt ownRef (by simp)
      (Owned.append_iff.mpr ⟨ownBody, owned_refsOf.mpr ownArgs⟩)
  · have ownKonts := Owned.flatMap_iff.mp (ownProgress _ rfl)
    exact respects_resumeAt ownRef ownKonts (owned_refsOf.mpr ownArgs)
  · exact .bind (respects_updateThread r (.waits · _) fun _ own => own) fun _ _ => .pure (.error _)
  · exact .pure (.error _)

theorem respects_runChunk (name source : Bytes) {args : List Datum}
    (ownArgs : OwnedData s args) : (runChunk s name source args).Respects (Results s) := by
  unfold runChunk
  split
  · exact .pure (.error _)
  · dsimp only
    split
    · exact .pure (.error _)
    · refine .bind (P := fun r => r.owner = s) (.perform (fun _ _ => ?_) fun _ _ => rfl) ?_
      · simp [Op.Allowed, Op.Permitted, Cell.refs]
      · intro r ownRef
        refine respects_startHere (Owned.append_iff.mpr ⟨?_, owned_refsOf.mpr ownArgs⟩)
        simpa [Callee.refs] using ownRef

/-- A task that is given data of a state gives data of that state. -/
theorem respects_task {task : Task} (own : Owned s task.refs) :
    (runTask s task).Respects (Results s) := by
  cases task with
  | call f args => exact respects_startHere own
  | resume thread args =>
    obtain ⟨ownThread, ownArgs⟩ := Owned.cons_iff.mp own
    exact respects_resume ownThread (owned_refsOf.mp ownArgs)
  | index object key =>
    obtain ⟨ownObject, ownKey⟩ := Owned.append_iff.mp own
    exact respects_runPrepared fun m within => Machine.respects_index within ownObject ownKey _ _
  | assign object key value =>
    obtain ⟨ownBoth, ownValue⟩ := Owned.append_iff.mp own
    obtain ⟨ownObject, ownKey⟩ := Owned.append_iff.mp ownBoth
    exact respects_runPrepared fun m within =>
      Machine.respects_assign within ownObject ownKey ownValue _ _
  | chunk name source args => exact respects_runChunk name source (owned_refsOf.mp own)

end Tasks

end ScriptBridge.Script
