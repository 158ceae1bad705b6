import ScriptBridge.Proofs.Custody
import ScriptBridge.Proofs.Origins
import ScriptBridge.Proofs.Requests

/-!
What is done for a request puts only anchored handles into the world: an engine calls native code with
data of its own state only, and a receiver gets what lasts.
-/

namespace ScriptBridge

open ScriptBridge.Action (Careful Grants Lends Secures SecuresAt)
open Script (CallbackResult Datum Machine OwnedData Results)

namespace Script

variable {ss : List StateId} {hs : List Handle} {s : StateId}

section Natives

theorem careful_oneDatum (v : Value) : (oneDatum s v).Careful ss hs :=
  .after (v.careful_toDatum s) fun _ => .done _

/-- To make a value of an argument takes no anchor from another handle. -/
theorem backing_argumentOf {w : World} (e : NativeEvent) (position : Nat) (d : Datum)
    (backing : w.Backing hs) : (argumentOf e position d).SecuresAt w fun w _ => w.Backing hs := by
  have anchors (r : Ref) {f : AnchorId → Except EngineError Value} :
      SecuresAt w (do pure (f (← .perform (.anchor r)))) fun w _ => w.Backing hs :=
    SecuresAt.next (o := .anchor r) trivial trivial
      (.pure fun h member => (backing h member).apply (.anchor r))
  cases d with
  | table r | function r | thread r | userdata r => exact anchors r
  | _ => exact .pure backing

variable (opened : s ∈ ss)
include opened

theorem grants_argumentOf (e : NativeEvent) (position : Nat) {d : Datum} (own : Owned s d.refs) :
    (argumentOf e position d).Grants ss hs := by
  unfold argumentOf
  split
  · exact .pure fun _ _ => List.forall_mem_nil _
  · exact .gain (Value.grants_ofDatum opened own) fun _ => .pure fun _ ready =>
      ready.lasting.subset (List.subset_append_left ..)

theorem careful_indexNative {w : World} (ready : w.Ready ss hs) {native : Native}
    (held : native.HoldsOnly w.Backs) (key : Datum) :
    (indexNative s native key).SecuresAt w fun _ _ => True := by
  refine .bind ready (backing_argumentOf _ _ _ held.held) fun found w ready backing => ?_
  split
  · exact .pure trivial
  · exact .bind ready (Native.lends_index opened ready held.plain backing _) fun v w ready _ =>
      careful_oneDatum v w ready

theorem careful_assignNative (n : NativeId) (native : Native) {key value : Datum}
    (ownKey : Owned s key.refs) (ownValue : Owned s value.refs) :
    (assignNative n native key value).Careful ss hs := by
  refine .gain (grants_argumentOf opened _ _ ownKey) fun key => ?_
  split
  · exact .done _
  · refine .gain (grants_argumentOf opened _ _ ownValue) fun value => ?_
    split
    · exact .done _
    · exact .after (native.careful_assign _ _ (List.subset_append_left ..)) fun _ => .done _

theorem careful_operateNative (op : Operator) {left right : Datum} (ownLeft : Owned s left.refs)
    (ownRight : Owned s right.refs) : (operateNative s op left right).Careful ss hs := by
  refine .after (grants_argumentOf opened _ _ ownLeft) fun left => ?_
  split
  · exact .done _
  · refine .after (grants_argumentOf opened _ _ ownRight) fun right => ?_
    split
    · exact .done _
    · exact .after (Native.grants_dispatch opened _ _ _) fun v => careful_oneDatum v

omit opened

theorem native_of_datum {w : World} {d : Datum} {n : NativeId} {native : Native}
    (found : nativeOfDatum w d = some (n, native)) : w.native? n = some native := by
  unfold nativeOfDatum at found
  split at found
  · split at found
    · obtain ⟨_, there, same⟩ := Option.map_eq_some_iff.mp found
      cases same
      exact there
    · cases found
  · cases found

variable {args : List Datum} (own : OwnedData s args)
include opened own

theorem careful_runMember (event : NativeEvent) : (runMember s event args).Careful ss hs := by
  have operand := own.headD
  have first := (own.drop 1).headD
  have second := (own.drop 2).headD
  unfold runMember
  dsimp only
  split
  · exact careful_operateNative opened _ operand first
  · refine .of_view fun w ready => ?_
    split
    · exact .pure trivial
    · rename_i n native found
      have held := ready.native (native_of_datum found)
      split
      · exact careful_indexNative opened ready held _
      · exact careful_assignNative opened _ _ first second w ready
      · refine Secures.gain (Value.grants_ofData opened (own.drop 1)) (fun values => ?_) w ready
        refine .after (native.lends_call opened held.plain (List.subset_append_left ..)) fun _ => ?_
        exact .after (Value.careful_toData _ _) fun _ => .done _
      · exact Secures.after native.careful_measure (fun _ => .done _) w ready
      · exact .view (.pure trivial)
      · exact careful_operateNative opened _ operand first w ready

theorem careful_runHost (f : HostFunction) : (runHost s f args).Careful ss hs := by
  refine .gain (Value.grants_ofData opened own) fun values => ?_
  refine .after (f.careful_run opened (List.subset_append_left ..)) fun _ => ?_
  exact .after (Value.careful_toData _ _) fun _ => .done _

omit own

/-- What an engine does for a script is careful if it calls native code with data of its state
only. -/
theorem secures_scripted {holds : α → Prop} {a : Action α}
    (scripted : a.Scripted (OwnedData s) s holds) : a.Secures ss hs fun _ x => holds x := by
  refine .of_scripted scripted fun native => ?_
  cases native with
  | host f own => exact careful_runHost opened own f
  | member event own => exact careful_runMember opened own event

end Natives

section Tasks

variable (opened : s ∈ ss)
include opened

namespace Machine

variable {m : Machine} (within : m.Within s)
include within

theorem secures_step : m.step.Secures ss hs fun _ next => Leads s next := by
  have supplied : m.step.Scripted (OwnedData s) s m.Onward := by
    have state := within.state
    subst state
    refine m.supplied_step fun f args form called => ?_
    have own := within.control
    rw [called] at own
    exact owned_refsOf.mp (Owned.append_iff.mp own).2
  exact .giving (secures_scripted opened supplied).careful (respects_step within)

theorem careful_run (n : Nat) : (m.run n).Careful ss hs := by
  induction n generalizing m with
  | zero => exact .fail _
  | succ n ih =>
    refine .knowing (secures_step opened within) fun next leads => ?_
    cases next with
    | done => exact .done _
    | «continue» m => exact ih leads

end Machine

theorem careful_updateThread (r : Ref) (f : Thread → Thread) : (updateThread r f).Careful ss hs :=
  secures_scripted opened (scripted_updateThread r f)

theorem careful_startHere {control : Control} (own : Owned s control.refs) :
    (startHere s control).Careful ss hs := by
  refine .knowing (.giving (.view fun _ _ => trivial) (respects_running s)) fun found ownThread => ?_
  split
  · rename_i thread
    have within : Machine.Within s { state := s, thread := thread, control := control } :=
      ⟨rfl, ownThread thread rfl, own, by simp, by simp⟩
    exact Machine.careful_run opened within _
  · exact .done _

theorem careful_runPrepared {prepare : Machine → Action Machine}
    (leaves : ∀ m : Machine, m.state = s → m.Leaves (OwnedData s) (prepare m))
    (prepares : ∀ m : Machine, m.Within s → (prepare m).Respects (Machine.Within s)) :
    (runPrepared s prepare).Careful ss hs := by
  refine .knowing (.giving (.view fun _ _ => trivial) (respects_running s)) fun found ownThread => ?_
  split
  · rename_i thread
    have begins : Machine.Within s { state := s, thread := thread, control := .give [] } :=
      ⟨rfl, ownThread thread rfl, by simp [Control.refs, refsOf], by simp, by simp⟩
    have left := leaves ⟨s, thread, .give [], [], [], false⟩ rfl
    exact .knowing (.giving (secures_scripted opened left).careful (prepares _ begins)) fun m within =>
      Machine.careful_run opened within _
  · exact .done _

theorem careful_resumeAt {r : Ref} (ownRef : r.owner = s) {konts : List Kont}
    (ownKonts : ∀ k ∈ konts, Owned s k.refs) {control : Control} (own : Owned s control.refs) :
    (resumeAt s r konts control).Careful ss hs := by
  refine .look fun previous => .after (careful_updateThread opened _ _) fun _ => .next trivial fun _ => ?_
  exact .after (Machine.careful_run opened ⟨rfl, ownRef, own, ownKonts, by simp⟩ _) fun _ =>
    .next trivial fun _ => .done _

theorem careful_resume {r : Ref} (ownRef : r.owner = s) {args : List Datum}
    (ownArgs : OwnedData s args) : (resume s r args).Careful ss hs := by
  refine .knowing (.giving (.view fun _ _ => trivial) (respects_progressOf ownRef))
    fun progress ownProgress => ?_
  split
  · have ownBody := ownProgress _ rfl
    exact careful_resumeAt opened ownRef (by simp)
      (Owned.append_iff.mpr ⟨ownBody, owned_refsOf.mpr ownArgs⟩)
  · have ownKonts := Owned.flatMap_iff.mp (ownProgress _ rfl)
    exact careful_resumeAt opened ownRef ownKonts (owned_refsOf.mpr ownArgs)
  · exact .after (careful_updateThread opened _ _) fun _ => .done _
  · exact .done _

theorem careful_runChunk (name source : Bytes) {args : List Datum} (ownArgs : OwnedData s args) :
    (runChunk s name source args).Careful ss hs := by
  unfold runChunk
  split
  · exact .done _
  · dsimp only
    split
    · exact .done _
    · refine .knowing (owner_allocate s _) fun r ownRef => ?_
      refine careful_startHere opened (Owned.append_iff.mpr ⟨?_, owned_refsOf.mpr ownArgs⟩)
      simpa [Callee.refs] using ownRef

/-- What an engine does for a task that is given data of its state. -/
theorem careful_runTask {task : Task} (own : Owned s task.refs) :
    (runTask s task).Careful ss hs := by
  cases task with
  | call f args => exact careful_startHere opened own
  | resume thread args =>
    obtain ⟨ownThread, ownArgs⟩ := Owned.cons_iff.mp own
    exact careful_resume opened ownThread (owned_refsOf.mp ownArgs)
  | index object key =>
    obtain ⟨ownObject, ownKey⟩ := Owned.append_iff.mp own
    exact careful_runPrepared opened (fun m _ => m.leaves_index _ _ _ _)
      fun m within => Machine.respects_index within ownObject ownKey _ _
  | assign object key value =>
    obtain ⟨ownBoth, ownValue⟩ := Owned.append_iff.mp own
    obtain ⟨ownObject, ownKey⟩ := Owned.append_iff.mp ownBoth
    exact careful_runPrepared opened (fun m _ => m.leaves_assign _ _ _ _ _)
      fun m within => Machine.respects_assign within ownObject ownKey ownValue _ _
  | chunk name source args => exact careful_runChunk opened name source (owned_refsOf.mp own)

end Tasks

end Script

/-- A receiver that is plain and whose state has been opened is handed what lasts. -/
theorem Connection.careful_deliver {ss : List StateId} {hs : List Handle} (c : Connection)
    (sender : ObjectId) {args : List HostValue} (plain : c.receiver.HandleFree)
    (opened : ∀ h ∈ handles c.receiver, h.state ∈ ss) (own : handles args ⊆ hs) :
    (c.deliver sender args).Careful ss hs := by
  unfold deliver
  split
  · rename_i s callable same
    rw [same] at opened
    refine .of_view fun w ready => ?_
    split
    · rename_i isOpen
      have inState : w.Ready ([s] ++ ss) hs :=
        ready.states (List.forall_mem_singleton.mpr (World.lt_next_of_isOpen isOpen))
      refine Secures.gain (grants_wrapObject List.mem_cons_self _ _) (fun object => ?_) w inState
      refine .gain (.mapM fun v member => HostValue.grants_toValue List.mem_cons_self ?_) fun values => ?_
      · exact fun h there => List.mem_append_right _ (own (mem_handles_list.mpr ⟨v, member, there⟩))
      · refine (Value.grants_call (fun h there => List.mem_cons_of_mem _ (opened h there)) ?_).discard
        exact List.append_subset.mpr ⟨fun _ there =>
          List.mem_append_right _ (List.mem_append_left _ there), List.subset_append_left ..⟩
    · exact .throw _
  · rename_i same
    rw [same] at plain
    refine .look fun isDestroyed => ?_
    split
    · exact .done _
    · exact (Behaviour.lends_run _ _ plain
        (List.Subset.trans (handles_subset (List.take_subset _ _)) own)).discard

/-- What is done for a request upholds what the world holds. -/
theorem Request.secures_program {w : World} (sound : w.Sound) (anchored : w.Anchored) {r : Request β}
    (permitted : r.Permitted) (lasting : r.Lasting w) :
    r.program.SecuresAt w fun _ _ => True := by
  cases r with
  | script s task =>
    have ready : w.Ready [s] [] :=
      ⟨sound, anchored, List.forall_mem_singleton.mpr lasting, List.forall_mem_nil _⟩
    exact Script.careful_runTask List.mem_cons_self permitted w ready
  | deliver c sender args =>
    obtain ⟨plain, opened, own⟩ := lasting
    have ready : w.Ready ((handles c.receiver).map Handle.state) (handles args) :=
      ⟨sound, anchored, List.forall_mem_map.mpr opened, own⟩
    exact c.careful_deliver sender plain (fun _ => List.mem_map_of_mem) (List.Subset.refl _) w ready
  | destroy o =>
    have ready : w.Ready [] [] := ⟨sound, anchored, List.forall_mem_nil _, List.forall_mem_nil _⟩
    exact careful_destroyObject o w ready
  | collect => exact .pure trivial

/-- So does whatever may carry it out. -/
theorem Request.Begins.secures {w w₁ : World} {r : Request β} {a : Action β}
    (begins : r.Begins w a w₁) (sound : w.Sound) (anchored : w.Anchored) (permitted : r.Permitted)
    (lasting : r.Lasting w) :
    w.Upkeep w₁ ∧ w₁.Anchored ∧ a.SecuresAt w₁ fun _ _ => True := by
  cases begins with
  | program => exact ⟨.refl w, anchored, r.secures_program sound anchored permitted lasting⟩
  | refused =>
    refine ⟨.refl w, anchored, ?_⟩
    cases (Action.refuse r w).1 with
    | ok b => exact .pure trivial
    | error f => exact .fail f
  | collected s w cells =>
    have ready : (w.retain s cells).2.Ready [] [] :=
      ⟨sound.retain s cells, anchored.retain s cells, List.forall_mem_nil _, List.forall_mem_nil _⟩
    refine ⟨.retain w s cells, anchored.retain s cells, ?_⟩
    exact (Secures.within (.lendsNothing (State.careful_finalize _) fun _ => rfl)).careful _ ready

/-- Wherever one looks at a run that puts only anchored handles into the world, all that the world
holds is anchored; and what is required of the end holds there. -/
theorem Runs.anchored {a : Action α} {w w' : World} {moments : List Moment}
    {outcome : Option (Except Fault α)} (runs : Runs a w moments outcome w') (sound : w.Sound)
    (anchored : w.Anchored) {Q R : Except Fault α → World → Prop} (meets : a.Meets R w)
    (upholds : a.Upholds Q w) :
    w'.Anchored ∧ ∀ result, outcome = some result → Q result w' := by
  induction runs with
  | stop => exact ⟨anchored, fun _ none => by cases none⟩
  | pure | fail =>
    refine ⟨anchored, ?_⟩
    rintro _ ⟨⟩
    exact upholds sound
  | op rest ih =>
    obtain ⟨allowed, onward⟩ := meets
    obtain ⟨own, going⟩ := upholds sound
    exact ih (allowed.permitted.sound sound) (anchored.apply own) onward going
  | requestStopped begins inner ih =>
    obtain ⟨-, sound₁, inside⟩ := Request.kept.begins State.safe_finalize begins sound meets.1
    obtain ⟨-, anchored₁, secures⟩ := begins.secures sound anchored meets.1 (upholds sound).1
    exact ⟨(ih sound₁ anchored₁ inside secures).1, fun _ none => by cases none⟩
  | requestFailed begins inner ih =>
    obtain ⟨lasting, failing, -⟩ := upholds sound
    obtain ⟨-, sound₁, inside⟩ := Request.kept.begins State.safe_finalize begins sound meets.1
    obtain ⟨upkeep, anchored₁, secures⟩ := begins.secures sound anchored meets.1 lasting
    obtain ⟨anchored', ends⟩ := ih sound₁ anchored₁ inside secures
    have sound' := ((inside.passage sound₁ inner).2 _ rfl).1
    refine ⟨anchored', ?_⟩
    rintro _ ⟨⟩
    exact failing _ _ sound' anchored' (upkeep.trans (ends _ rfl).1)
  | requestDone begins inner rest ihInner ihRest =>
    obtain ⟨lasting, -, going⟩ := upholds sound
    obtain ⟨-, sound₁, inside⟩ := Request.kept.begins State.safe_finalize begins sound meets.1
    obtain ⟨upkeep, anchored₁, secures⟩ := begins.secures sound anchored meets.1 lasting
    obtain ⟨anchored₂, ends⟩ := ihInner sound₁ anchored₁ inside secures
    obtain ⟨sound₂, promised⟩ := (inside.passage sound₁ inner).2 _ rfl
    have promised := promised _ rfl
    exact ihRest sound₂ anchored₂ (meets.2.2 _ _ sound₂ promised)
      (going _ _ sound₂ anchored₂ (upkeep.trans (ends _ rfl).1) promised)
  | scopeStopped inner ih =>
    exact ⟨(ih (sound.enter _) (anchored.enter _) meets (upholds sound)).1, fun _ none => by cases none⟩
  | scopeDone inner rest ihInner ihRest =>
    have entered := sound.enter
    obtain ⟨anchored₁, ends⟩ := ihInner (entered _) (anchored.enter _) meets (upholds sound)
    obtain ⟨trail, onward⟩ := inner.trail Request.kept State.safe_finalize (entered _) meets
    have sound₁ := trail.sound (entered _)
    exact ihRest (sound₁.exit _ _) (anchored₁.exit _ _) (onward _ rfl) (ends _ rfl).2

end ScriptBridge
