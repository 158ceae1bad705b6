import ScriptBridge.Host.Library
import ScriptBridge.Proofs.Safekeeping

/-!
The operations of native objects, values and states put only anchored handles into the world, and so
does what scripts have of the host's side.
-/

namespace ScriptBridge

open ScriptBridge.Action (Careful Grants Lends Secures SecuresAt)
open Script (Datum OwnedData)

section

variable {ss : List StateId} {hs : List Handle} {s : StateId}

namespace World.Ready

variable {w : World} (ready : w.Ready ss hs)
include ready

/-- Registered classes are plain. -/
theorem lookupId {id : Nat} {e : TypeEntry} (found : w.lookupTypeId id = some e) :
    e.cls.HandleFree :=
  ready.anchored.held.types e (List.mem_of_getElem? found)

theorem lookup {name : String} {e : TypeEntry} (found : w.lookupType name = some e) :
    e.cls.HandleFree := by
  obtain ⟨id, -, there⟩ := Option.bind_eq_some_iff.mp found
  exact ready.lookupId there

theorem native {n : NativeId} {native : Native} (found : w.native? n = some native) :
    native.HoldsOnly w.Backs :=
  ready.anchored.held.natives n native found

theorem nativeOf {v : Value} {native : Native} (found : w.nativeOf? v = some native) :
    native.HoldsOnly w.Backs := by
  obtain ⟨n, -, there⟩ := Option.bind_eq_some_iff.mp found
  exact ready.native there

end World.Ready

namespace Class

variable {c : Class} (plain : c.HandleFree)
include plain

theorem careful_instantiate (creator : Bool) {args : List Value} (own : ScriptBridge.handles args ⊆ hs) :
    (c.instantiate creator args).Careful ss hs := by
  unfold Class.instantiate
  split
  · exact .perform (fun _ _ => plain) trivial
  · refine .look fun found => ?_
    split
    · exact .gain (grants_marshalArgs _ own) fun _ =>
        Creation.careful_run plain _ (List.subset_append_left ..)
    · exact .throw _

theorem grants_construct (opened : s ∈ ss) (creator : Bool) {args : List Value}
    (own : ScriptBridge.handles args ⊆ hs) (ownership : Ownership) :
    (c.construct s creator args ownership).Grants ss hs :=
  .after (careful_instantiate plain creator own) fun _ => grants_wrapObject opened _ _

end Class

namespace Native

/-- The overload that is selected is one of the candidates. -/
theorem mem_of_selectOverload {w : World} {params : α → List HostType} {candidates : List α}
    {args : List Value} {c : α} (selected : selectOverload w params candidates args = some c) :
    c ∈ candidates := by
  unfold selectOverload at selected
  cases exact : candidates.find? fun c => fits (HostType.acceptsExactly w) (params c) args with
  | some own =>
    rw [exact] at selected
    cases selected
    exact List.mem_of_find?_eq_some exact
  | none =>
    rw [exact] at selected
    exact List.mem_of_find?_eq_some selected

section Members

variable (opened : s ∈ ss)
include opened

theorem lends_readMember (o : ObjectId) (key : Value) : (readMember s o key).Lends ss hs := by
  refine .of_view fun w ready => ?_
  have plain := ready.classOf o
  refine Secures.after (.check _) (fun name => .look fun alive => .after (.check _) fun _ => ?_)
    w ready
  split
  · rename_i p found
    have getter := Property.handles_getter (plain.property? found)
    exact .bind (Behaviour.lends_run _ _ getter (List.nil_subset _)) fun v w ready backing =>
      HostValue.lends_toValue opened ready backing
  · split
    · exact .throw _
    · exact .lends (grants_wrapNative opened trivial (List.nil_subset _))

omit opened

theorem careful_writeMember (o : ObjectId) (key : Value) {value : Value} (own : handles value ⊆ hs) :
    (writeMember o key value).Careful ss hs := by
  refine .of_view fun w ready => ?_
  have plain := ready.classOf o
  refine Secures.after (.check _) (fun name => .look fun alive => .after (.check _) fun _ => ?_)
    w ready
  split
  · rename_i p found
    split
    · exact .throw _
    · rename_i setter same
      have body := Property.handles_setter (plain.property? found) same
      refine .gain (HostType.grants_fromValue _ own) fun value => ?_
      refine .after (Behaviour.lends_run _ _ body ?_).discard fun _ => .done _
      simp [Holding.handles]
  · split
    · exact .done _
    · exact .throw _

include opened

theorem lends_callMember (o : ObjectId) (name : String) {args : List Value}
    (own : handles args ⊆ hs) : (callMember s o name args).Lends ss hs := by
  refine .of_view fun w ready => ?_
  have plain := ready.classOf o
  refine Secures.look (fun alive => .after (.check _) fun _ => .look fun isSelf => ?_) w ready
  extract_lets args
  have fewer : handles args ⊆ hs := by
    intro h member
    refine own ?_
    unfold args at member
    split at member
    · exact handles_subset (List.drop_subset 1 _) member
    · exact member
  refine .of_view fun w ready => ?_
  split
  · exact .throw _
  · rename_i m selected
    have declared := plain.member (List.mem_of_mem_filter (mem_of_selectOverload selected))
    refine Secures.gain (grants_marshalArgs _ fewer) (fun hostArgs => ?_) w ready
    have given : handles hostArgs ⊆ handles hostArgs ++ hs := List.subset_append_left ..
    split
    · exact .after (careful_emitSignal _ _ given) fun _ => .pure fun _ _ => List.forall_mem_nil _
    · split
      · exact .throw _
      · rename_i body same
        have bodyPlain := Member.handles_body declared same
        refine .bind (Behaviour.lends_run _ _ bodyPlain given) fun result w ready backing => ?_
        split
        · exact .pure (List.forall_mem_nil _)
        · refine .bind ready (HostValue.lends_toValue opened ready backing) fun x w _ backing => ?_
          exact .pure (handles_singleton x ▸ backing)

end Members

/-- There are no handles in a sample but those of the arguments it is made of. -/
theorem of_sample {typeName : String} {args : List Value} {native : Native}
    (made : sample typeName args = .ok native) :
    native.HandleFree ∧ handles native ⊆ handles args := by
  unfold sample at made
  split at made
  · simp only [vec2OfArgs, bind, Except.bind] at made
    split at made
    · cases made
    · split at made
      · cases made
      · cases made
        exact ⟨trivial, List.nil_subset _⟩
  all_goals cases made
  all_goals exact ⟨trivial, by simp [handles]⟩

theorem secures_sample (typeName : String) (args : List Value) :
    (Action.ofExcept (sample typeName args)).Secures ss hs fun _ native =>
      native.HandleFree ∧ handles native ⊆ handles args :=
  .ofExcept fun _ made _ _ => of_sample made

/-- What a native object gives for a key is anchored if all that it holds is. -/
theorem lends_index (opened : s ∈ ss) {w : World} (ready : w.Ready ss hs) {native : Native}
    (plain : native.HandleFree) (backing : w.Backing (handles native)) (key : Value) :
    (native.index s key).SecuresAt w fun w x => w.Backing (handles x) := by
  have scalar {x : Value} (none : handles x = []) :
      (pure x : Action Value).SecuresAt w fun w x => w.Backing (handles x) :=
    .pure (World.Backing.of_nil none)
  cases native with
  | wrapper o => exact lends_readMember opened o key w ready
  | typeObject c =>
    refine .view (.ofExcept fun x found => World.Backing.of_nil ?_)
    unfold typeMember at found
    split at found
    · cases found
      rfl
    · cases found
      cases c.superclass <;> rfl
    · cases found
      cases w.lookupType c.name <;> rfl
    · cases found
  | typeNamespace =>
    simp only [index]
    split
    · refine .view ?_
      split
      · rename_i found
        exact Secures.lends (grants_wrapType opened (ready.lookup found) _) w ready
      · exact .throw _
    · exact .throw _
  | vec2 | counter =>
    simp only [index]
    split <;> first | exact scalar rfl | exact .throw _
  | bag items =>
    simp only [index]
    cases key.toInteger with
    | error => exact .throw _
    | ok i =>
      refine .pure ?_
      split
      · exact List.forall_mem_nil _
      · exact fun h member => backing h (handles_getD rfl items _ member)
  | _ => exact .throw _

theorem careful_newIndex (n : NativeId) (native : Native) (key : Value) {value : Value}
    (own : handles value ⊆ hs) : (native.newIndex n key value).Careful ss hs := by
  cases native with
  | wrapper => exact careful_writeMember _ _ own
  | typeNamespace => exact .throw _
  | counter =>
    simp only [newIndex]
    split
    · exact .after (.check _) fun _ => .next trivial fun _ => .done _
    · exact .done _
  | _ => exact .done _

theorem careful_assign (n : NativeId) (native : Native) (key : Value) {value : Value}
    (own : handles value ⊆ hs) : (native.assign n key value).Careful ss hs := by
  refine .after (careful_newIndex n native key own) fun taken => ?_
  split
  · exact .done _
  · exact .look fun _ => .throw _

theorem lends_call (opened : s ∈ ss) {native : Native} (plain : native.HandleFree)
    {args : List Value} (own : handles args ⊆ hs) : (native.call s args).Lends ss hs := by
  cases native with
  | boundMethod => exact lends_callMember opened _ _ own
  | typeObject =>
    refine .lends (.gain (Class.grants_construct plain opened _ own _) fun x => .pure fun _ ready => ?_)
    exact ready.lasting.subset (handles_singleton x ▸ List.subset_append_left ..)
  | bag =>
    refine .lends (.pure fun _ ready => ready.lasting.subset ?_)
    exact List.Subset.trans (handles_subset (List.reverse_subset.mpr (List.Subset.refl _))) own
  | _ => exact .look fun _ => .throw _

theorem careful_length (native : Native) : native.length.Careful ss hs := by
  cases native with
  | typeNamespace => exact .view fun _ _ => trivial
  | vec2 | bag => exact .done _
  | _ => exact .look fun _ => .throw _

theorem careful_measure (native : Native) : native.measure.Careful ss hs := by
  unfold measure
  split
  · exact native.careful_length
  · exact .look fun _ => .throw _

section Operators

variable (opened : s ∈ ss)
include opened

theorem grants_vec2Operate (op : Operator) (left right : Option (Double × Double)) :
    (vec2Operate s op left right).Grants ss hs := by
  have truth (b : Bool) : Grants ss hs (pure (Value.bool b)) :=
    .pure fun _ _ => List.forall_mem_nil _
  unfold vec2Operate
  split
  · exact grants_wrapNative opened trivial (List.nil_subset _)
  · exact grants_wrapNative opened trivial (List.nil_subset _)
  all_goals first | exact truth _ | exact .throw _

theorem grants_operate (native : Native) (op : Operator) (left right : Value) :
    (native.operate s op left right).Grants ss hs := by
  cases native with
  | wrapper =>
    simp only [operate]
    split
    · exact .look fun _ => .pure fun _ _ => List.forall_mem_nil _
    · exact .look fun _ => .throw _
  | vec2 => exact .look fun _ => grants_vec2Operate opened _ _ _
  | bag => exact .pure fun _ _ => List.forall_mem_nil _
  | _ => exact .look fun _ => .throw _

theorem grants_dispatch (op : Operator) (left right : Value) :
    (dispatch s op left right).Grants ss hs := by
  refine .look fun found => ?_
  split
  · exact .throw _
  · split
    · exact grants_operate opened _ _ _ _
    · exact .look fun _ => .throw _

end Operators

end Native

namespace Value

theorem secures_callHelper (opened : s ∈ ss) (number : Nat) (args : List Datum) :
    (callHelper s number args).Secures ss hs fun _ data => OwnedData s data := by
  refine .look fun found => ?_
  split
  · exact secures_runTask opened _
  · exact .throw _

/-- The native object that a value refers to holds only what is anchored. -/
theorem native_holdsOnly {w : World} (ready : w.Ready ss hs) {v : Value} {n : NativeId}
    {native : Native} (found : ((w.nativeId? v).bind fun n => (w.native? n).map fun native =>
      (n, native)) = some (n, native)) : native.HoldsOnly w.Backs := by
  obtain ⟨m, -, there⟩ := Option.bind_eq_some_iff.mp found
  obtain ⟨_, own, same⟩ := Option.map_eq_some_iff.mp there
  cases same
  exact ready.native own

theorem grants_index {v : Value} (own : handles v ⊆ hs) (key : Value) :
    (v.index key).Grants ss hs := by
  refine .inStates own ?_
  unfold index
  split
  · rename_i h
    have opened : h.state ∈ (handles (Value.handle h)).map Handle.state ++ ss := List.mem_cons_self
    split
    · exact .after (Handle.careful_checkOpen _) fun _ => TableOps.grants_get opened _
    · refine .after (Handle.careful_checkOpen _) fun _ => .operation <| .of_view fun w ready => ?_
      split
      · rename_i found
        have held := native_holdsOnly ready found
        exact Native.lends_index opened ready held.plain held.held key
      · refine Secures.after (key.careful_toDatum _) (fun _ => ?_) w ready
        exact .knowing (secures_callHelper opened _ _) fun _ given =>
          .lends (grants_ofDatum opened given.headD)
    · exact .throw _
  · exact .throw _

theorem careful_setIndex {v : Value} (own : handles v ⊆ hs) (key : Value) {value : Value}
    (given : handles value ⊆ hs) : (v.setIndex key value).Careful ss hs := by
  refine .inStates own ?_
  unfold setIndex
  split
  · rename_i h
    have opened : h.state ∈ (handles (Value.handle h)).map Handle.state ++ ss := List.mem_cons_self
    split
    · exact .after (Handle.careful_checkOpen _) fun _ => TableOps.careful_set opened _ _
    · refine .after (Handle.careful_checkOpen _) fun _ => .enclosed <| .look fun found => ?_
      split
      · exact Native.careful_assign _ _ _ given
      · exact .after (key.careful_toDatum _) fun _ => .after (value.careful_toDatum _) fun _ =>
          (secures_callHelper opened _ _).discard
    · exact .throw _
  · exact .throw _

theorem careful_markResumed (r : Ref) : (markResumed r).Careful ss hs := by
  refine .look fun found => ?_
  split
  · exact .act trivial
  · exact .done _

theorem grants_resume {h : Handle} (opened : h.state ∈ ss) (args : List Value) :
    (resume h args).Grants ss hs := by
  refine .after h.careful_checkOpen fun _ => .operation <| .look fun state => ?_
  split
  · exact .throw _
  · exact .throw _
  all_goals
    exact .after (careful_markResumed _) fun _ => .after (careful_toData _ _) fun _ =>
      .knowing (secures_runTask opened _) fun _ given => .lends (grants_ofData opened given)

/-- To call a value its state has to have been opened; whether it is still anchored does not
matter. -/
theorem grants_call {v : Value} (opened : ∀ h ∈ handles v, h.state ∈ ss) {args : List Value}
    (own : handles args ⊆ hs) : (v.call args).Grants ss hs := by
  unfold call
  split
  · rename_i h
    have opened : h.state ∈ ss := opened h List.mem_cons_self
    have helping : Lends ss hs (do
        let args ← toData h.state args
        ofData (← callHelper h.state 2 (h.datum :: args))) :=
      .after (careful_toData _ _) fun _ => .knowing (secures_callHelper opened _ _) fun _ given =>
        .lends (grants_ofData opened given)
    split
    · refine .after h.careful_checkOpen fun _ => .operation <| .after (careful_toData _ _) fun _ => ?_
      exact .knowing (secures_runTask opened _) fun _ given => .lends (grants_ofData opened given)
    · exact grants_resume opened _
    · refine .after h.careful_checkOpen fun _ => .operation <| .of_view fun w ready => ?_
      split
      · rename_i found
        exact Native.lends_call opened (native_holdsOnly ready found).plain own w ready
      · exact helping w ready
    · refine .after h.careful_checkOpen fun _ => .operation <| .look fun found => ?_
      split
      · exact .throw _
      · exact helping
  · exact .throw _

theorem careful_length (v : Value) : v.length.Careful ss hs := by
  have measured {s : StateId} {look : World → Nat} : Careful ss hs (.operation s (.view look)) :=
    (Secures.operation (.lendsNothing (.view fun _ _ => trivial) fun _ => rfl)).careful
  unfold length
  split
  · exact .done _
  · split
    · exact .after (Handle.careful_checkOpen _) fun _ => measured
    · refine .after (Handle.careful_checkOpen _) fun _ => ?_
      refine (Secures.operation (.lendsNothing (.look fun found => ?_) fun _ => rfl)).careful
      split
      · split
        · exact Native.careful_length _
        · exact .throw _
      · exact .throw _
    · exact .throw _
  · exact .throw _

theorem careful_isEmpty (v : Value) : v.isEmpty.Careful ss hs := by
  unfold isEmpty
  split
  · exact .after (Handle.careful_checkOpen _) fun _ =>
      (Secures.operation (.lendsNothing (.view fun _ _ => trivial) fun _ => rfl)).careful
  · exact .after v.careful_length fun _ => .done _

theorem careful_shift (v : Value) (start count : Int64) (fill : Value) :
    (v.shift start count fill).Careful ss hs := by
  unfold shift
  split
  · exact .after (Handle.careful_checkOpen _) fun _ => TableOps.careful_shift _ _ _ _
  · exact .throw _

theorem grants_entries {v : Value} (own : handles v ⊆ hs) : v.entries.Grants ss hs := by
  refine .inStates own ?_
  unfold entries
  split
  · rename_i h found
    have opened : h.state ∈ (handles v).map Handle.state ++ ss :=
      List.mem_append_left _ (List.mem_map_of_mem (mem_of_ofKind? found))
    exact .after (Handle.careful_checkOpen _) fun _ => TableOps.grants_entries opened own
  · exact .throw _

end Value

theorem Entry.grants_set {e : Entry} (own : handles e ⊆ hs) {value : Value}
    (given : handles value ⊆ hs) : (e.set value).Grants ss hs := by
  have table : handles e.table ⊆ hs := fun _ member =>
    own (List.mem_append_left _ (List.mem_append_left _ member))
  refine .after (Value.careful_setIndex table _ given) fun _ => .pure fun _ ready => ?_
  refine ready.lasting.subset (List.append_subset.mpr ⟨?_, given⟩)
  exact fun _ member => own (List.mem_append_left _ member)

namespace State

/-- To end native objects puts nothing into the world. -/
theorem careful_reapAll (n : Nat) : (reapAll n).Careful ss hs := by
  induction n with
  | zero => exact .done _
  | succ n ih =>
    refine .next trivial fun found => ?_
    split
    · exact .done _
    · exact .after (.forM fun n _ => careful_releaseNative n) fun _ => ih

theorem careful_finalize (natives : List NativeId) : (finalize natives).Careful ss hs :=
  .forM fun n _ => .after (careful_releaseNative n) fun _ => .look fun _ => careful_reapAll _

/-- A scope for native objects that an operation gives up. -/
private theorem careful_ending {o : Op (List NativeId)} (idle : o.Idle) : Careful ss hs
    (.within .values (do finalize (← .perform o))) :=
  (Secures.within (.lendsNothing (.next idle fun _ => careful_finalize _) fun _ => rfl)).careful

theorem careful_collectGarbage (s : StateId) : (collectGarbage s).Careful ss hs :=
  .enclosed <| .next trivial fun _ => .after (careful_ending trivial) fun _ => careful_ending trivial

theorem careful_close (s : StateId) : (close s).Careful ss hs := by
  refine .look fun isOpen => ?_
  split
  · exact .after (careful_ending trivial) fun _ => .done _
  · exact .done _

section

variable (opened : s ∈ ss)
include opened

theorem grants_executeNamed (name source : String) : (executeNamed s name source).Grants ss hs := by
  refine .look fun entry => ?_
  refine .gain (.attempt <| .lends <| .operation <| .knowing (secures_runTask opened _) fun _ given =>
    .lends (Value.grants_ofData opened given)) fun result => ?_
  refine .look fun after => .look fun config => ?_
  split
  · exact .throw _
  · refine .ofExcept fun values same _ ready => ready.lasting.subset ?_
    rw [same]
    exact List.subset_append_left ..

theorem grants_execute (source : String) : (execute s source).Grants ss hs :=
  .look fun _ => grants_executeNamed opened _ _

theorem grants_globals : (globals s).Grants ss hs := by
  refine .operation <| .of_view fun w ready => ?_
  split
  · rename_i e found
    have own : e.globals.owner ∈ ss := by
      rw [ready.sound.isolated.globals found]
      exact opened
    exact Secures.lends (Value.grants_anchored _ own) w ready
  · exact .throw _

omit opened

theorem grants_follow (path : String) (before : List String) {current : Value}
    (own : handles current ⊆ hs) (parts : List String) :
    (follow path before current parts).Grants ss hs := by
  induction parts generalizing before current hs with
  | nil => exact .pure fun _ ready => ready.lasting.subset own
  | cons segment rest ih =>
    simp only [follow]
    split
    · exact .gain (current.grants_index own _) fun _ => ih _ (List.subset_append_left ..)
    · exact .throw _

include opened

theorem grants_get (path : String) : (get s path).Grants ss hs :=
  .operation <| .lends <| .after (.check _) fun _ => .gain (grants_globals opened) fun _ =>
    grants_follow _ _ (List.subset_append_left ..) _

theorem grants_makeWay (path : String) (before : List String) {current : Value}
    (own : handles current ⊆ hs) (parts : List String) :
    (makeWay s path before current parts).Grants ss hs := by
  induction parts generalizing before current hs with
  | nil => exact .pure fun _ ready => ready.lasting.subset own
  | cons segment rest ih =>
    refine .gain (current.grants_index own _) fun next => ?_
    have still : handles current ⊆ handles next ++ hs := List.subset_append_of_subset_right _ own
    split
    · refine .gain (TableOps.grants_newTable opened) fun table => ?_
      have made : handles table ⊆ handles table ++ (handles next ++ hs) :=
        List.subset_append_left ..
      exact .after (current.careful_setIndex (List.subset_append_of_subset_right _ still) _ made)
        fun _ => ih _ made
    · split
      · exact ih _ (List.subset_append_left ..)
      · exact .throw _

theorem careful_set (path : String) {value : Value} (own : handles value ⊆ hs) :
    (set s path value).Careful ss hs := by
  refine .enclosed <| .after (.check _) fun parts => .gain (grants_globals opened) fun start => ?_
  refine .gain (grants_makeWay opened _ _ (List.subset_append_left ..) _) fun table => ?_
  exact table.careful_setIndex (List.subset_append_left ..) _
    (List.subset_append_of_subset_right _ (List.subset_append_of_subset_right _ own))

theorem grants_newSequence {items : List Value} (own : handles items ⊆ hs) :
    (newSequence s items).Grants ss hs := by
  refine .gain (TableOps.grants_newTable opened) fun table => ?_
  have made : handles table ⊆ handles table ++ hs := List.subset_append_left ..
  refine .after (.forM fun (item, i) member => ?_) fun _ => .pure fun _ ready =>
    ready.lasting.subset made
  refine table.careful_setIndex made _ fun h there => List.mem_append_right _ (own ?_)
  exact mem_handles_list.mpr ⟨item, List.fst_mem_of_mem_zipIdx member, there⟩

theorem grants_createFunction (f : HostFunction) : (createFunction s f).Grants ss hs :=
  .operation <| .lends <| .knowing (secures_allocate opened _) fun _ own =>
    Value.grants_anchored _ own

theorem careful_registerFunction (path : String) (f : HostFunction) :
    (registerFunction s path f).Careful ss hs :=
  .gain (grants_createFunction opened f) fun _ => careful_set opened _ (List.subset_append_left ..)

theorem grants_newThread (function : Value) : (newThread s function).Grants ss hs := by
  unfold newThread
  split
  · exact .throw _
  · split
    · exact .throw _
    · exact .operation <| .lends <| .knowing (secures_allocate opened _) fun _ own =>
        Value.grants_anchored _ own

theorem grants_metaType (typeName : String) : (metaType s typeName).Grants ss hs := by
  refine .of_view fun w ready => ?_
  split
  · rename_i found
    exact grants_wrapType opened (ready.lookup found) _ w ready
  · exact .throw _

theorem grants_construct (typeName : String) {args : List Value} (own : handles args ⊆ hs)
    (ownership : Ownership) : (construct s typeName args ownership).Grants ss hs := by
  refine .of_view fun w ready => ?_
  split
  · rename_i found
    exact Class.grants_construct (ready.lookup found) opened _ own _ w ready
  · exact .throw _

end

end State

namespace HostFunction

theorem careful_hostArgument (args : List Value) (index : Nat) (function : String) :
    (hostArgument args index function).Careful ss hs := by
  refine .look fun found => ?_
  split
  · exact .done _
  · exact .throw _

theorem careful_textArgument (args : List Value) (index : Nat) (function : String) :
    (textArgument args index function).Careful ss hs := by
  unfold textArgument
  split
  · exact .done _
  · exact .throw _

theorem careful_tagged [Holding α] (tag : String) {body : Action α} (inside : body.Lends ss hs) :
    (Action.tagged tag body).Careful ss hs := by
  refine .scope inside (fun x => .done _) fun f => ?_
  cases f with
  | failed => exact .throw _
  | exhausted => exact .fail _

theorem secures_classArgument (v : Value) :
    (classArgument v).Secures ss hs fun _ found => found.1.HandleFree := by
  refine .of_view fun w ready => ?_
  split
  · rename_i c creator found
    refine .pure ?_
    unfold World.typeObject? at found
    split at found
    · rename_i native
      cases found
      exact (ready.nativeOf native).plain
    · cases found
  · split
    · refine .view ?_
      split
      · rename_i found
        exact .pure (ready.lookup found)
      · exact .throw _
    · exact .throw _

/-- The arguments of a constructor are among all arguments. -/
theorem splitParent_subset (w : World) (c : Class) (creator : Bool) (args : List Value) :
    (splitParent w c creator (args.drop 1)).1 ⊆ args := by
  have dropped : args.drop 1 ⊆ args := List.drop_subset 1 args
  unfold splitParent
  split
  · exact dropped
  · split
    · exact List.Subset.trans (List.dropLast_subset _) dropped
    · exact dropped

variable (opened : s ∈ ss) {args : List Value} (own : handles args ⊆ hs)

include own

theorem handles_argument (n : Nat) : handles (argument args n) ⊆ hs :=
  List.Subset.trans (handles_getD rfl args n) own

theorem careful_connectArguments (s : StateId) : (connectArguments s args).Careful ss hs := by
  refine .after (careful_hostArgument _ _ _) fun source => ?_
  refine .after (careful_textArgument _ _ _) fun signal => ?_
  refine careful_tagged _ (.lendsNothing ?_ fun _ => rfl)
  split
  · exact (Host.careful_connect _ _ _ (handles_argument own 2)).discard
  · exact .after (careful_hostArgument _ _ _) fun _ => .after (careful_textArgument _ _ _) fun _ =>
      (Host.careful_connectSlot _ _ _ _).discard
  · exact .throw _

omit own

theorem careful_disconnectArguments (args : List Value) :
    (disconnectArguments args).Careful ss hs := by
  refine .after (careful_hostArgument _ _ _) fun source => ?_
  refine .after (careful_textArgument _ _ _) fun signal => ?_
  refine careful_tagged _ (.lendsNothing ?_ fun _ => rfl)
  split
  · exact Host.careful_disconnect _ _ _
  · exact Host.careful_disconnect _ _ _
  · exact .after (careful_hostArgument _ _ _) fun _ => .after (careful_textArgument _ _ _) fun _ =>
      Host.careful_disconnectSlot _ _ _ _
  · exact .throw _

include own opened

theorem grants_makeObject : (makeObject s args).Grants ss hs := by
  refine .knowing (secures_classArgument _) fun (c, creator) plain => .of_view fun w ready => ?_
  have fewer := List.Subset.trans (handles_subset (splitParent_subset w c creator args)) own
  refine Secures.gain (Class.grants_construct plain opened _ fewer _)
    (fun object => .look fun found => ?_) w ready
  have given : Grants ss (handles object ++ hs) (pure object) :=
    .pure fun _ ready => ready.lasting.subset (List.subset_append_left ..)
  split
  · exact .next trivial fun _ => .after (.check _) fun _ => given
  · exact given

omit own

theorem grants_propertyList (v : Value) : (propertyList s v).Grants ss hs := by
  refine .look fun found => ?_
  split
  · refine .look fun c => State.grants_newSequence opened fun h member => ?_
    obtain ⟨name, -, none⟩ := mem_handles_map.mp member
    cases none
  · exact .throw _

include own

theorem careful_run (f : HostFunction) : (f.run s args).Careful ss hs := by
  have dropped : handles (args.drop 1) ⊆ hs := 
    List.Subset.trans (handles_subset (List.drop_subset 1 _)) own
  cases f with
  | newObject =>
    exact .after (careful_tagged _ (.lends (grants_makeObject opened own))) fun _ => .done _
  | connect => exact .after (careful_connectArguments own s) fun _ => .done _
  | connectSlotsByName =>
    exact .after (careful_hostArgument _ _ _) fun _ =>
      .after (careful_tagged _ (.lendsNothing (Host.careful_connectByName _) fun _ => rfl))
        fun _ => .done _
  | disconnect => exact .after (careful_disconnectArguments args) fun _ => .done _
  | metaType => exact .look fun _ => .after (.check _) fun _ => .done _
  | typeOf => exact .look fun _ => .done _
  | propertyNames => exact .after (grants_propertyList opened _) fun _ => .done _
  | vec2 =>
    exact .knowing (Native.secures_sample _ _) fun native known =>
      .after (grants_wrapNative opened known.1 (List.Subset.trans known.2 own)) fun _ => .done _
  | native =>
    exact .after (.check _) fun _ => .knowing (Native.secures_sample _ _) fun native known =>
      .after (grants_wrapNative opened known.1 (List.Subset.trans known.2 dropped)) fun _ => .done _
  | add => exact .after (.check _) fun _ => .done _
  | frames => exact .view fun _ _ => trivial
  | call =>
    refine .inStates (handles_argument own 0) (Secures.careful (Value.grants_call ?_ dropped))
    exact fun h member => List.mem_append_left _ (List.mem_map_of_mem member)
  | exec => exact .after (.check _) fun _ => (State.grants_execute opened _).careful
  | get => exact .after (.check _) fun _ => .after (State.grants_get opened _) fun _ => .done _
  | log => exact .look fun _ => .after (.check _) fun _ => .next trivial fun _ => .done _
  | fail | failTagged => exact .throw _
  | echo | count => exact .done _

end HostFunction

end

end ScriptBridge
