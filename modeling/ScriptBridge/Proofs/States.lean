import ScriptBridge.Host.Library
import ScriptBridge.Proofs.Hosts
import ScriptBridge.Proofs.Machine

/-!
The operations on values and states, and the functions of the host's side, keep engines apart.
-/

namespace ScriptBridge

open ScriptBridge.Action (Gives Meets Respects Safe)
open Script (Datum OwnedData)

namespace Value

theorem safe_callHelper {s : StateId} (number : Nat) {args : List Datum}
    (own : OwnedData s args) : (callHelper s number args).Safe := by
  refine .bind (P := fun found => ∀ r, found = some r → r.owner = s) (.view ?_) ?_
  · intro w ⟨isolated, _⟩ r found
    obtain ⟨e, engine, there⟩ := Option.bind_eq_some_iff.mp found
    exact isolated.helper engine (List.mem_of_getElem? there)
  · intro found ownFound
    split
    · rename_i f
      have ownTask : Owned s (Task.call (.function f) args).refs := by
        simpa [Task.refs, Script.owned_refsOf] using ⟨ownFound f rfl, own⟩
      exact (respects_runTask ownTask).safe
    · exact .throw _

theorem safe_index (v key : Value) : (v.index key).Safe := by
  unfold index
  split
  · rename_i h
    split
    · exact .bind h.safe_checkOpen fun _ _ => TableOps.safe_get h.target key
    · refine .bind h.safe_checkOpen fun _ _ => .operation (.of_view fun w _ => ?_)
      split
      · exact Native.safe_index _ _ key
      · refine .bind (respects_toDatum h.state key) fun d own => ?_
        refine .bind (safe_callHelper 0 ?_) fun data _ => safe_ofDatum _
        simpa [Handle.refs_datum, Handle.state] using own
    · exact .throw _
  · exact .throw _

theorem safe_setIndex (v key value : Value) : (v.setIndex key value).Safe := by
  unfold setIndex
  split
  · rename_i h
    split
    · exact .bind h.safe_checkOpen fun _ _ => TableOps.safe_set h.target key value
    · refine .bind h.safe_checkOpen fun _ _ => .operation (.of_view fun w _ => ?_)
      split
      · exact Native.safe_assign _ _ key value
      · refine .bind (respects_toDatum h.state key) fun d own => ?_
        refine .bind (respects_toDatum h.state value) fun d' own' => ?_
        refine .discard (safe_callHelper 1 ?_)
        simpa [Handle.refs_datum, Handle.state] using ⟨own, own'⟩
    · exact .throw _
  · exact .throw _

/-- To mark a coroutine that has been found suspended closes no state. -/
theorem meets_markResumed {w : World} (sound : w.Sound) {r : Ref}
    (suspended : w.threadState r = .fresh ∨ w.threadState r = .yielded) :
    (markResumed r).Meets (fun result w' =>
      result = .ok () ∧ w'.Sound ∧ ∀ t, w'.isOpen t = w.isOpen t) w := by
  refine Meets.view_iff.mpr ?_
  split
  · rename_i t found
    have progress : w.progressOf r = some t.progress := by simp [World.progressOf, found]
    have own := World.progressOf_owned sound.isolated rfl progress
    have allowed : (Op.write r (.thread { t with resumed := true })).Allowed w :=
      ⟨own, .marked found suspended⟩
    exact ⟨allowed, rfl, allowed.permitted.sound sound, fun s => World.isOpen_modifyEngine w r.owner s _⟩
  · exact ⟨rfl, sound, fun _ => rfl⟩

theorem safe_resume (h : Handle) (args : List Value) : (resume h args).Safe := by
  have going {w : World} (sound : w.Sound)
      (suspended : w.threadState h.target = .fresh ∨ w.threadState h.target = .yielded) :
      (markResumed h.target >>= fun _ => toData h.state args >>= fun args =>
        runTask h.state (.resume h.target args) >>= ofData).Meets (Gives fun _ => True) w := by
    refine Meets.bind_iff.mpr ((meets_markResumed sound suspended).mono ?_)
    rintro _ w' ⟨rfl, sound', -⟩
    refine Respects.bind (respects_toData h.state args) (fun data own => ?_) w' sound'
    refine .bind (respects_runTask ?_) fun results _ => safe_ofData results
    simpa [Task.refs, Script.owned_refsOf, Handle.state] using own
  refine .bind h.safe_checkOpen fun _ _ => .operation fun w sound => Meets.view_iff.mpr ?_
  cases state : w.threadState h.target with
  | dead | running => exact Respects.throw _ w sound
  | fresh => exact going sound (.inl state)
  | yielded => exact going sound (.inr state)

theorem safe_call (v : Value) (args : List Value) : (v.call args).Safe := by
  have withSelf {h : Handle} {data : List Datum} (own : OwnedData h.state data) :
      OwnedData h.state (h.datum :: data) := by
    simpa [Handle.refs_datum, Handle.state] using own
  unfold call
  split
  · rename_i h
    split
    · refine .bind h.safe_checkOpen fun _ _ => .operation ?_
      refine .bind (respects_toData h.state args) fun data own => ?_
      refine .bind (respects_runTask ?_) fun results _ => safe_ofData results
      simpa [Task.refs, Script.owned_refsOf, Handle.refs_datum, Handle.state] using own
    · exact safe_resume h args
    · refine .bind h.safe_checkOpen fun _ _ => .operation (.of_view fun w _ => ?_)
      split
      · exact Native.safe_call _ _ args
      · refine .bind (respects_toData h.state args) fun data own => ?_
        exact .bind (safe_callHelper 2 (withSelf own)) fun results _ => safe_ofData results
    · refine .bind h.safe_checkOpen fun _ _ => .operation (.of_view fun w _ => ?_)
      split
      · exact .throw _
      · refine .bind (respects_toData h.state args) fun data own => ?_
        exact .bind (safe_callHelper 2 (withSelf own)) fun results _ => safe_ofData results
  · exact .throw _

theorem safe_length (v : Value) : v.length.Safe := by
  unfold length
  split
  · exact .pure trivial
  · rename_i h
    split
    · exact .bind h.safe_checkOpen fun _ _ => .operation (.view fun _ _ => trivial)
    · refine .bind h.safe_checkOpen fun _ _ => .operation (.of_view fun w _ => ?_)
      split
      · split
        · exact Native.safe_length _
        · exact .throw _
      · exact .throw _
    · exact .throw _
  · exact .throw _

theorem safe_isEmpty (v : Value) : v.isEmpty.Safe := by
  unfold isEmpty
  split
  · rename_i h _
    exact .bind h.safe_checkOpen fun _ _ => .operation (.view fun _ _ => trivial)
  · exact .bind (safe_length v) fun _ _ => .pure trivial

theorem safe_shift (v : Value) (start count : Int64) (fill : Value) :
    (v.shift start count fill).Safe := by
  unfold shift
  split
  · rename_i h _
    exact .bind h.safe_checkOpen fun _ _ => TableOps.safe_shift h.target start count fill
  · exact .throw _

theorem safe_entries (v : Value) : v.entries.Safe := by
  unfold entries
  split
  · rename_i h _
    exact .bind h.safe_checkOpen fun _ _ => TableOps.safe_entries v h.target
  · exact .throw _

end Value

theorem Entry.safe_set (e : Entry) (value : Value) : (e.set value).Safe :=
  .bind (Value.safe_setIndex e.table e.key value) fun _ _ => .pure trivial

namespace State

theorem safe_executeNamed (s : StateId) (name source : String) :
    (executeNamed s name source).Safe := by
  have running : Safe (.operation s do
      let data ← runTask s (.chunk (.ofString name) (.ofString source) [])
      Value.ofData data) :=
    .operation (.bind (respects_runTask (by simp [Task.refs, Script.refsOf])) fun data _ =>
      Value.safe_ofData data)
  refine .of_view fun w _ => .bind (Respects.attempt running) fun result _ => ?_
  refine .of_view fun w _ => .of_view fun w' _ => ?_
  split
  · exact .throw _
  · exact .ofExcept fun _ _ => trivial

theorem safe_execute (s : StateId) (source : String) : (execute s source).Safe :=
  .of_view fun _ _ => safe_executeNamed s _ source

theorem safe_globals (s : StateId) : (globals s).Safe := by
  refine .operation (.of_view fun w _ => ?_)
  split
  · exact (Value.respects_anchored .table _).safe
  · exact .throw _

theorem safe_follow (path : String) (before : List String) (current : Value)
    (parts : List String) : (follow path before current parts).Safe := by
  induction parts generalizing before current with
  | nil => exact .pure trivial
  | cons segment rest ih =>
    simp only [follow]
    split
    · exact .bind (Value.safe_index current _) fun next _ => ih _ next
    · exact .throw _

theorem safe_get (s : StateId) (path : String) : (get s path).Safe :=
  .operation (.bind (P := fun _ => True) (.ofExcept fun _ _ => trivial) fun parts _ =>
    .bind (safe_globals s) fun start _ => safe_follow path [] start parts)

theorem safe_makeWay (s : StateId) (path : String) (before : List String) (current : Value)
    (parts : List String) : (makeWay s path before current parts).Safe := by
  induction parts generalizing before current with
  | nil => exact .pure trivial
  | cons segment rest ih =>
    refine .bind (Value.safe_index current _) fun next _ => ?_
    split
    · refine .bind (TableOps.respects_newTable s).safe fun table _ => ?_
      exact .bind (Value.safe_setIndex current _ table) fun _ _ => ih _ table
    · split
      · exact ih _ next
      · exact .throw _

theorem safe_set (s : StateId) (path : String) (value : Value) : (set s path value).Safe :=
  .operation (.bind (P := fun _ => True) (.ofExcept fun _ _ => trivial) fun _ _ =>
    .bind (safe_globals s) fun start _ => .bind (safe_makeWay s path [] start _) fun table _ =>
      Value.safe_setIndex table _ value)

theorem safe_newSequence (s : StateId) (items : List Value) : (newSequence s items).Safe := by
  refine .bind (TableOps.respects_newTable s).safe fun table _ => ?_
  refine .bind (P := fun _ => True) (.forM fun entry _ => ?_) fun _ _ => .pure trivial
  exact Value.safe_setIndex table _ entry.1

theorem safe_createFunction (s : StateId) (f : HostFunction) : (createFunction s f).Safe := by
  refine .operation (.bind (P := fun _ => True) (.act fun _ _ => ?_) fun r _ =>
    (Value.respects_anchored .function r).safe)
  simp [Op.Allowed, Op.Permitted, Script.Cell.refs, Script.Builtin.refs]

theorem safe_registerFunction (s : StateId) (path : String) (f : HostFunction) :
    (registerFunction s path f).Safe :=
  .bind (safe_createFunction s f) fun function _ => safe_set s path function

/-- A coroutine is made from a function of the same state only. -/
theorem safe_newThread (s : StateId) (function : Value) : (newThread s function).Safe := by
  unfold newThread
  split
  · exact .throw _
  · rename_i h _
    split
    · exact .throw _
    · rename_i same
      have own : Owned s h.datum.refs := by
        simpa [Handle.refs_datum, Handle.state] using same
      exact .operation (.bind (P := fun _ => True) (.act fun w _ => .newThread own w) fun r _ =>
        (Value.respects_anchored .thread r).safe)

theorem safe_metaType (s : StateId) (typeName : String) : (metaType s typeName).Safe := by
  refine .of_view fun w _ => ?_
  split
  · exact safe_wrapNative s (by simp [Native.IsWrapper])
  · exact .throw _

theorem safe_construct (s : StateId) (typeName : String) (args : List Value)
    (ownership : Ownership) : (construct s typeName args ownership).Safe := by
  refine .of_view fun w _ => ?_
  split
  · exact Class.safe_construct s _ _ args ownership
  · exact .throw _

theorem safe_reapAll (n : Nat) : (reapAll n).Safe := by
  induction n with
  | zero => exact .pure trivial
  | succ n ih =>
    refine .bind (P := fun _ => True) (.act fun _ _ => trivial) fun natives _ => ?_
    split
    · exact .pure trivial
    · exact .bind (.forM fun n _ => safe_releaseNative n) fun _ _ => ih

theorem safe_finalize (natives : List NativeId) : (finalize natives).Safe :=
  .forM fun n _ => .bind (safe_releaseNative n) fun _ _ => .of_view fun _ _ => safe_reapAll _

theorem safe_collectGarbage (s : StateId) : (collectGarbage s).Safe := by
  have round : Safe (.within .values (do finalize (← .perform (.sweep s)))) :=
    .within (.bind (P := fun _ => True) (.act fun _ _ => trivial) fun natives _ =>
      safe_finalize natives)
  exact .operation (.bind (P := fun _ => True) (.act fun _ _ => trivial) fun _ _ =>
    .bind round fun _ _ => round)

theorem safe_close (s : StateId) : (close s).Safe := by
  refine .of_view fun w _ => ?_
  split
  · refine .bind (P := fun _ => True) (.within ?_) fun _ _ => .pure trivial
    exact .bind (P := fun _ => True) (.act fun _ _ => trivial) fun natives _ =>
      safe_finalize natives
  · exact .pure trivial

end State

theorem Native.plain_of_sample {typeName : String} {args : List Value} {native : Native}
    (made : sample typeName args = .ok native) : ¬ native.IsWrapper := by
  unfold sample at made
  split at made
  · simp only [vec2OfArgs, bind, Except.bind] at made
    split at made
    · simp at made
    · split at made
      · simp at made
      · obtain rfl := Except.ok.inj made
        simp [IsWrapper]
  · obtain rfl := Except.ok.inj made
    simp [IsWrapper]
  · obtain rfl := Except.ok.inj made
    simp [IsWrapper]
  · obtain rfl := Except.ok.inj made
    simp [IsWrapper]
  · obtain rfl := Except.ok.inj made
    simp [IsWrapper]
  · obtain rfl := Except.ok.inj made
    simp [IsWrapper]
  · simp at made

theorem Action.Respects.tagged [Holding α] {tag : String} {body : Action α} {P : α → Prop}
    (inside : body.Respects P) : (Action.tagged tag body).Respects P := by
  refine .scope inside (fun _ holds => .pure holds) fun f => ?_
  cases f with
  | failed e => exact .throw _
  | exhausted => exact .fail _

namespace HostFunction

theorem safe_hostArgument (args : List Value) (index : Nat) (function : String) :
    (hostArgument args index function).Safe := by
  refine .of_view fun w _ => ?_
  split
  · exact .pure trivial
  · exact .throw _

theorem safe_textArgument (args : List Value) (index : Nat) (function : String) :
    (textArgument args index function).Safe := by
  unfold textArgument
  split
  · exact .pure trivial
  · exact .throw _

theorem safe_classArgument (v : Value) : (classArgument v).Safe := by
  refine .of_view fun w _ => ?_
  split
  · exact .pure trivial
  · split
    · refine .of_view fun w' _ => ?_
      split
      · exact .pure trivial
      · exact .throw _
    · exact .throw _

theorem safe_makeObject (s : StateId) (args : List Value) : (makeObject s args).Safe := by
  refine .bind (safe_classArgument _) fun (c, creator) _ => .of_view fun w _ => ?_
  refine .bind (Class.safe_construct s c creator _ .script) fun object _ => .of_view fun w' _ => ?_
  dsimp only
  split
  · refine .bind (P := fun _ => True) (.act fun _ _ => trivial) fun _ _ => ?_
    exact .bind (P := fun _ => True) (.ofExcept fun _ _ => trivial) fun _ _ => .pure trivial
  · exact .pure trivial

theorem safe_connectArguments (s : StateId) (args : List Value) :
    (connectArguments s args).Safe := by
  refine .bind (safe_hostArgument args 0 _) fun source _ => ?_
  refine .bind (safe_textArgument args 1 _) fun signal _ => .tagged ?_
  split
  · exact .discard (Host.safe_connect s source signal _)
  · refine .bind (safe_hostArgument args 2 _) fun target _ => ?_
    refine .bind (safe_textArgument args 3 _) fun slot _ => ?_
    exact .discard (Host.safe_connectSlot source signal target slot)
  · exact .throw _

theorem safe_disconnectArguments (args : List Value) : (disconnectArguments args).Safe := by
  refine .bind (safe_hostArgument args 0 _) fun source _ => ?_
  refine .bind (safe_textArgument args 1 _) fun signal _ => .tagged ?_
  split
  · exact Host.safe_disconnect source signal none
  · exact Host.safe_disconnect source signal _
  · refine .bind (safe_hostArgument args 2 _) fun target _ => ?_
    refine .bind (safe_textArgument args 3 _) fun slot _ => ?_
    exact Host.safe_disconnectSlot source signal target slot
  · exact .throw _

theorem safe_propertyList (s : StateId) (v : Value) : (propertyList s v).Safe := by
  refine .of_view fun w _ => ?_
  split
  · exact .of_view fun w' _ => State.safe_newSequence s _
  · exact .throw _

/-- What a function of the host's side does keeps engines apart. -/
theorem safe_run (s : StateId) (f : HostFunction) (args : List Value) : (f.run s args).Safe := by
  have text (index : Nat) : Safe (.ofExcept (argument args index).toText) :=
    .ofExcept fun _ _ => trivial
  cases f with
  | newObject => exact .bind (.tagged (safe_makeObject s args)) fun _ _ => .pure trivial
  | connect => exact .bind (safe_connectArguments s args) fun _ _ => .pure trivial
  | connectSlotsByName =>
    refine .bind (safe_hostArgument args 0 _) fun target _ => ?_
    exact .bind (.tagged (Host.safe_connectByName target)) fun _ _ => .pure trivial
  | disconnect => exact .bind (safe_disconnectArguments args) fun _ _ => .pure trivial
  | metaType =>
    exact .of_view fun _ _ => .bind (P := fun _ => True) (.ofExcept fun _ _ => trivial) fun _ _ =>
      .pure trivial
  | typeOf => exact .of_view fun _ _ => .pure trivial
  | propertyNames => exact .bind (safe_propertyList s _) fun _ _ => .pure trivial
  | fail | failTagged => exact .throw _
  | vec2 =>
    refine .bind (.ofExcept fun _ made => Native.plain_of_sample made) fun native plain => ?_
    exact .bind (safe_wrapNative s plain) fun _ _ => .pure trivial
  | native =>
    refine .bind (text 0) fun name _ => ?_
    refine .bind (.ofExcept fun _ made => Native.plain_of_sample made) fun native plain => ?_
    exact .bind (safe_wrapNative s plain) fun _ _ => .pure trivial
  | add => exact .bind (P := fun _ => True) (.ofExcept fun _ _ => trivial) fun _ _ => .pure trivial
  | echo | count => exact .pure trivial
  | frames => exact .view fun _ _ => trivial
  | call => exact Value.safe_call _ _
  | exec => exact .bind (text 0) fun source _ => State.safe_execute s source
  | get => exact .bind (text 0) fun path _ => .bind (State.safe_get s path) fun _ _ => .pure trivial
  | log =>
    refine .of_view fun w _ => .bind (P := fun _ => True) (.ofExcept fun _ _ => trivial) ?_
    exact fun _ _ => .bind (P := fun _ => True) (.act fun _ _ => trivial) fun _ _ => .pure trivial

end HostFunction

end ScriptBridge
