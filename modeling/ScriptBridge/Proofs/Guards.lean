import ScriptBridge.Program
import ScriptBridge.Proofs.Guarded
import ScriptBridge.Proofs.Runs

/-!
Every program of the bridge does only what is allowed, whatever operations are in progress where it is
run: it has an engine run a script only in an operation of its own on the state of that engine.
-/

namespace ScriptBridge

open ScriptBridge.Action (Guarded)
open Script (CallbackResult Datum)

section

variable {ops : List StateId}

section Values

theorem Value.guarded_anchored (kind : HandleKind) (r : Ref) :
    (Value.anchored kind r).Guarded ops :=
  .next trivial fun _ => trivial

theorem Value.guarded_ofDatum (d : Datum) : (Value.ofDatum d).Guarded ops := by
  cases d with
  | table | function | thread | userdata => exact Value.guarded_anchored _ _
  | _ => exact trivial

theorem Value.guarded_ofData (data : List Datum) : (Value.ofData data).Guarded ops :=
  .mapM Value.guarded_ofDatum

theorem Value.guarded_toDatum (s : StateId) (v : Value) : (v.toDatum s).Guarded ops :=
  .next trivial fun _ => .ofExcept _

theorem Value.guarded_toData (s : StateId) (values : List Value) :
    (Value.toData s values).Guarded ops :=
  .mapM (Value.guarded_toDatum s)

theorem Handle.guarded_checkOpen (h : Handle) : h.checkOpen.Guarded ops :=
  .next trivial fun _ => .ofExcept _

/-- A task is asked for in an operation on its state, or sets a state up. -/
theorem guarded_runTask {s : StateId} {task : Task} (allowed : s ∈ ops ∨ task.IsSetup) :
    (runTask s task).Guarded ops := by
  refine .bind (.ask allowed) fun outcome => ?_
  cases outcome <;> exact trivial

theorem guarded_wrapNativeId (s : StateId) (n : NativeId) : (wrapNativeId s n).Guarded ops :=
  .operation <| .next trivial fun _ => Value.guarded_anchored _ _

theorem guarded_wrapNative (s : StateId) (native : Native) : (wrapNative s native).Guarded ops :=
  .next trivial fun n => guarded_wrapNativeId s n

theorem guarded_wrapObject (s : StateId) (o : ObjectId) (ownership : Ownership) :
    (wrapObject s o ownership).Guarded ops := by
  refine .operation <| .next trivial fun found => ?_
  split
  · exact Value.guarded_anchored _ _
  · refine .next trivial fun n => .bind (guarded_wrapNativeId s n) fun value => ?_
    split
    · exact .next trivial fun _ => trivial
    · exact trivial

end Values

namespace TableOps

theorem guarded_setContent (r : Ref) (content : Script.Table) :
    (setContent r content).Guarded ops :=
  .next trivial fun _ => .perform trivial

theorem guarded_newTable (s : StateId) : (newTable s).Guarded ops :=
  .operation <| .next trivial fun _ => Value.guarded_anchored _ _

theorem guarded_get (r : Ref) (key : Value) : (get r key).Guarded ops :=
  .operation <| .bind (key.guarded_toDatum _) fun _ =>
    .bind (guarded_runTask (.inl List.mem_cons_self)) fun _ => Value.guarded_ofDatum _

theorem guarded_set (r : Ref) (key value : Value) : (set r key value).Guarded ops :=
  .operation <| .bind (key.guarded_toDatum _) fun _ => .bind (value.guarded_toDatum _) fun _ =>
    .discard (guarded_runTask (.inl List.mem_cons_self))

theorem guarded_entries (table : Value) (r : Ref) : (entries table r).Guarded ops :=
  .operation <| .next trivial fun _ => .mapM fun (k, v) => .bind (Value.guarded_ofDatum k) fun _ =>
    .bind (Value.guarded_ofDatum v) fun _ => trivial

theorem guarded_shift (r : Ref) (start count : Int64) (fill : Value) :
    (shift r start count fill).Guarded ops := by
  refine .operation <| .next trivial fun content => ?_
  dsimp only
  split
  · exact trivial
  · split
    · exact guarded_setContent _ _
    · split
      · split
        · exact trivial
        · exact .bind (guarded_setContent _ _) fun _ => .bind (fill.guarded_toDatum _) fun _ =>
            guarded_setContent _ _
      · exact trivial

end TableOps

section Objects

theorem guarded_releaseNative (n : NativeId) : (releaseNative n).Guarded ops := by
  refine .next trivial fun native => ?_
  split
  · refine .next trivial fun found => ?_
    split
    · exact .ask trivial
    · exact trivial
  · exact trivial

theorem Host.guarded_put (o : ObjectId) (property : String) (value : HostValue) :
    (Host.put o property value).Guarded ops :=
  .next trivial fun _ => .next trivial fun _ => .forM guarded_releaseNative

theorem guarded_emitSignal (o : ObjectId) (signal : String) (args : List HostValue) :
    (emitSignal o signal args).Guarded ops := by
  refine .next trivial fun receivers => ?_
  refine .bind (.mapM fun c => .attempt (.ask trivial)) fun outcomes => ?_
  split <;> exact trivial

theorem Host.guarded_emit (o : ObjectId) (signal : String) (args : List HostValue) :
    (Host.emit o signal args).Guarded ops := by
  refine .next trivial fun found => .bind (.ofExcept _) fun member => ?_
  refine .next trivial fun alive => .bind (.ofExcept _) fun _ => ?_
  split
  · exact trivial
  · exact guarded_emitSignal _ _ _

theorem Host.guarded_connect (s : StateId) (o : ObjectId) (signal : String) (callable : Value) :
    (Host.connect s o signal callable).Guarded ops := by
  refine .next trivial fun found => .bind (.ofExcept _) fun member => ?_
  split
  · exact trivial
  · exact .next trivial fun _ => .bind (.ofExcept _) fun _ => .perform trivial

theorem Host.guarded_connectSlot (o : ObjectId) (signal : String) (target : ObjectId)
    (slot : String) : (Host.connectSlot o signal target slot).Guarded ops := by
  refine .next trivial fun found => .bind (.ofExcept _) fun member => ?_
  refine .next trivial fun found => .bind (.ofExcept _) fun slotMember => ?_
  split
  · exact trivial
  · split
    · exact trivial
    · exact .next trivial fun _ => .bind (.ofExcept _) fun _ => .next trivial fun _ =>
        .bind (.ofExcept _) fun _ =>
        .perform trivial

theorem Host.guarded_disconnect (o : ObjectId) (signal : String) (callable : Option Value) :
    (Host.disconnect o signal callable).Guarded ops :=
  .next trivial fun _ => .bind (.ofExcept _) fun _ => .perform trivial

theorem Host.guarded_disconnectSlot (o : ObjectId) (signal : String) (target : ObjectId)
    (slot : String) : (Host.disconnectSlot o signal target slot).Guarded ops :=
  .next trivial fun _ => .bind (.ofExcept _) fun _ => .next trivial fun _ =>
    .bind (.ofExcept _) fun _ => .perform trivial

theorem Host.guarded_connectByName (target : ObjectId) :
    (Host.connectByName target).Guarded ops := by
  refine .next trivial fun alive => .bind (.ofExcept _) fun _ => .next trivial fun candidates => ?_
  refine .next trivial fun slots => ?_
  refine .bind (.mapM fun slot => .next trivial fun found => ?_) fun made => trivial
  split
  · exact .bind (.discard (guarded_connectSlot _ _ _ _)) fun _ => trivial
  · exact trivial

theorem Behaviour.guarded_run (o : ObjectId) (signature : String) (b : Behaviour)
    (args : List HostValue) : (b.run o signature args).Guarded ops := by
  refine .next trivial fun _ => ?_
  cases b with
  | get => exact .next trivial fun _ => trivial
  | put => exact .bind (Host.guarded_put _ _ _) fun _ => trivial
  | putEmit =>
    refine .next trivial fun old => .bind (Host.guarded_put _ _ _) fun _ => ?_
    refine .next trivial fun differ => ?_
    dsimp only
    split
    · exact .bind (Host.guarded_emit _ _ _) fun _ => trivial
    · exact trivial
  | emit => exact .bind (Host.guarded_emit _ _ _) fun _ => trivial
  | log =>
    exact .next trivial fun _ => .bind (.ofExcept _) fun _ => .next trivial fun _ =>
      .next trivial fun _ => trivial
  | destroy => exact .bind (.ask trivial) fun _ => trivial
  | objectName | rename | parent | findChild => exact .next trivial fun _ => trivial
  | setParent => exact .next trivial fun _ => .bind (.ofExcept _) fun _ => trivial
  | _ => exact trivial

theorem Creation.guarded_run (c : Class) (creation : Creation) (args : List HostValue) :
    (creation.run c args).Guarded ops := by
  cases creation with
  | fail => exact trivial
  | assign targets =>
    refine .next trivial fun o => .bind (.forM fun (target, value) => ?_) fun _ => trivial
    cases target with
    | none => exact trivial
    | some target => cases target <;> exact .perform trivial

theorem guarded_destroyObject (o : ObjectId) : (destroyObject o).Guarded ops := by
  refine .next trivial fun isDestroyed => ?_
  split
  · exact trivial
  · refine .next trivial fun declares => ?_
    extract_lets rest
    have going (u : PUnit) : (rest u).Guarded ops :=
      .next trivial fun children => .forM fun child => .ask trivial
    split
    · exact .bind (.discard (.attempt (guarded_emitSignal _ _ _))) going
    · exact going ⟨⟩

end Objects

section Marshalling

theorem HostType.guarded_items (r : Ref) : (HostType.items r).Guarded ops :=
  .bind (.operation (.view _)) fun _ => .mapM fun _ =>
    .bind (TableOps.guarded_get _ _) fun _ => trivial

theorem HostType.guarded_fromValue (t : HostType) (v : Value) : (t.fromValue v).Guarded ops := by
  cases t with
  | void | variant => exact trivial
  | bool =>
    simp only [HostType.fromValue]
    split <;> exact trivial
  | int | double | string => exact .bind (.ofExcept _) fun _ => trivial
  | object | native =>
    simp only [HostType.fromValue]
    split
    · exact trivial
    · refine .next trivial fun found => ?_
      split <;> exact trivial
  | list =>
    simp only [HostType.fromValue]
    split
    · exact .bind (Handle.guarded_checkOpen _) fun _ =>
        .bind (HostType.guarded_items _) fun _ => trivial
    · exact trivial

theorem guarded_marshalArgs (params : List HostType) (args : List Value) :
    (marshalArgs params args).Guarded ops :=
  .mapM fun (t, v) => t.guarded_fromValue v

mutual

theorem HostValue.guarded_toValue (s : StateId) :
    (v : HostValue) → (v.toValue s).Guarded ops
  | .void | .bool _ | .int _ | .double _ | .text _ | .object none | .native none | .variant _ => by
    simp only [HostValue.toValue]
    exact trivial
  | .object (some o) => by
    simp only [HostValue.toValue]
    exact guarded_wrapObject _ _ _
  | .native (some n) => by
    simp only [HostValue.toValue]
    exact guarded_wrapNativeId _ _
  | .list items => by
    simp only [HostValue.toValue]
    refine .bind (TableOps.guarded_newTable s) fun table => ?_
    split
    · exact .bind (HostValue.guarded_fillTable s _ 1 items) fun _ => trivial
    · exact trivial

theorem HostValue.guarded_fillTable (s : StateId) (r : Ref) (position : Nat) :
    (items : List HostValue) → (HostValue.fillTable s r position items).Guarded ops
  | [] => by
    simp only [HostValue.fillTable]
    exact trivial
  | item :: items => by
    simp only [HostValue.fillTable]
    exact .bind (HostValue.guarded_toValue s item) fun _ => .bind (TableOps.guarded_set _ _ _)
      fun _ => HostValue.guarded_fillTable s r (position + 1) items

end

theorem Class.guarded_instantiate (c : Class) (creator : Bool) (args : List Value) :
    (c.instantiate creator args).Guarded ops := by
  unfold Class.instantiate
  split
  · exact .perform trivial
  · refine .next trivial fun found => ?_
    split
    · exact .bind (guarded_marshalArgs _ _) fun _ => Creation.guarded_run _ _ _
    · exact trivial

theorem Class.guarded_construct (s : StateId) (c : Class) (creator : Bool) (args : List Value)
    (ownership : Ownership) : (c.construct s creator args ownership).Guarded ops :=
  .bind (c.guarded_instantiate creator args) fun _ => guarded_wrapObject _ _ _

end Marshalling

namespace Native

theorem guarded_readMember (s : StateId) (o : ObjectId) (key : Value) :
    (readMember s o key).Guarded ops := by
  refine .next trivial fun c => .bind (.ofExcept _) fun name => ?_
  refine .next trivial fun _ => .bind (.ofExcept _) fun _ => ?_
  split
  · exact .bind (Behaviour.guarded_run _ _ _ _) fun v => v.guarded_toValue s
  · split
    · exact trivial
    · exact guarded_wrapNative _ _

theorem guarded_writeMember (o : ObjectId) (key value : Value) :
    (writeMember o key value).Guarded ops := by
  refine .next trivial fun c => .bind (.ofExcept _) fun name => ?_
  refine .next trivial fun _ => .bind (.ofExcept _) fun _ => ?_
  split
  · split
    · exact trivial
    · exact .bind (HostType.guarded_fromValue _ _) fun _ =>
        .bind (.discard (Behaviour.guarded_run _ _ _ _)) fun _ => trivial
  · split <;> exact trivial

theorem guarded_callMember (s : StateId) (o : ObjectId) (name : String) (args : List Value) :
    (callMember s o name args).Guarded ops := by
  refine .next trivial fun c => .next trivial fun _ => .bind (.ofExcept _) fun _ => ?_
  refine .next trivial fun isSelf => ?_
  dsimp only
  refine .next trivial fun found => ?_
  split
  · exact trivial
  · refine .bind (guarded_marshalArgs _ _) fun hostArgs => ?_
    split
    · exact .bind (guarded_emitSignal _ _ _) fun _ => trivial
    · split
      · exact trivial
      · refine .bind (Behaviour.guarded_run _ _ _ _) fun result => ?_
        split
        · exact trivial
        · exact .bind (HostValue.guarded_toValue _ _) fun _ => trivial

theorem guarded_index (s : StateId) (native : Native) (key : Value) :
    (native.index s key).Guarded ops := by
  cases native with
  | wrapper => exact guarded_readMember _ _ _
  | typeObject => exact .next trivial fun _ => .ofExcept _
  | typeNamespace =>
    simp only [index]
    split
    · refine .next trivial fun found => ?_
      split
      · exact guarded_wrapNative _ _
      · exact trivial
    · exact trivial
  | vec2 | counter =>
    simp only [index]
    split <;> exact trivial
  | bag => exact .bind (.ofExcept _) fun _ => trivial
  | _ => exact trivial

theorem guarded_assign (n : NativeId) (native : Native) (key value : Value) :
    (native.assign n key value).Guarded ops := by
  have taking : (native.newIndex n key value).Guarded ops := by
    cases native with
    | wrapper => exact guarded_writeMember _ _ _
    | counter =>
      simp only [newIndex]
      split
      · exact .bind (.ofExcept _) fun _ => .next trivial fun _ => trivial
      · exact trivial
    | _ => exact trivial
  refine .bind taking fun taken => ?_
  split
  · exact trivial
  · exact .next trivial fun _ => trivial

theorem guarded_call (s : StateId) (native : Native) (args : List Value) :
    (native.call s args).Guarded ops := by
  cases native with
  | boundMethod => exact guarded_callMember _ _ _ _
  | typeObject => exact .bind (Class.guarded_construct _ _ _ _ _) fun _ => trivial
  | bag => exact trivial
  | _ => exact .next trivial fun _ => trivial

theorem guarded_length (native : Native) : native.length.Guarded ops := by
  cases native with
  | typeNamespace => exact .view _
  | vec2 | bag => exact trivial
  | _ => exact .next trivial fun _ => trivial

theorem guarded_measure (native : Native) : native.measure.Guarded ops := by
  unfold measure
  split
  · exact native.guarded_length
  · exact .next trivial fun _ => trivial

theorem guarded_vec2Operate (s : StateId) (op : Operator) (left right : Option (Double × Double)) :
    (vec2Operate s op left right).Guarded ops := by
  unfold vec2Operate
  split
  · exact guarded_wrapNative _ _
  · exact guarded_wrapNative _ _
  all_goals exact trivial

theorem guarded_operate (s : StateId) (native : Native) (op : Operator) (left right : Value) :
    (native.operate s op left right).Guarded ops := by
  cases native with
  | wrapper =>
    simp only [operate]
    split <;> exact .next trivial fun _ => trivial
  | vec2 => exact .next trivial fun _ => guarded_vec2Operate _ _ _ _
  | bag => exact trivial
  | _ => exact .next trivial fun _ => trivial

theorem guarded_dispatch (s : StateId) (op : Operator) (left right : Value) :
    (dispatch s op left right).Guarded ops := by
  refine .next trivial fun found => ?_
  split
  · exact trivial
  · split
    · exact guarded_operate _ _ _ _ _
    · exact .next trivial fun _ => trivial

end Native

namespace Value

/-- A helper is called in an operation on its state. -/
theorem guarded_callHelper {s : StateId} (own : s ∈ ops) (number : Nat) (args : List Datum) :
    (callHelper s number args).Guarded ops := by
  refine .next trivial fun found => ?_
  split
  · exact guarded_runTask (.inl own)
  · exact trivial

theorem guarded_index (v key : Value) : (v.index key).Guarded ops := by
  unfold index
  split
  · split
    · exact .bind (Handle.guarded_checkOpen _) fun _ => TableOps.guarded_get _ _
    · refine .bind (Handle.guarded_checkOpen _) fun _ => .operation <| .next trivial fun found => ?_
      split
      · exact Native.guarded_index _ _ _
      · exact .bind (key.guarded_toDatum _) fun _ =>
          .bind (guarded_callHelper List.mem_cons_self _ _) fun _ => guarded_ofDatum _
    · exact trivial
  · exact trivial

theorem guarded_setIndex (v key value : Value) : (v.setIndex key value).Guarded ops := by
  unfold setIndex
  split
  · split
    · exact .bind (Handle.guarded_checkOpen _) fun _ => TableOps.guarded_set _ _ _
    · refine .bind (Handle.guarded_checkOpen _) fun _ => .operation <| .next trivial fun found => ?_
      split
      · exact Native.guarded_assign _ _ _ _
      · exact .bind (key.guarded_toDatum _) fun _ => .bind (value.guarded_toDatum _) fun _ =>
          .discard (guarded_callHelper List.mem_cons_self _ _)
    · exact trivial
  · exact trivial

theorem guarded_markResumed (r : Ref) : (markResumed r).Guarded ops := by
  refine .next trivial fun found => ?_
  split
  · exact .perform trivial
  · exact trivial

theorem guarded_resume (h : Handle) (args : List Value) : (resume h args).Guarded ops := by
  refine .bind h.guarded_checkOpen fun _ => .operation <| .next trivial fun state => ?_
  split
  · exact trivial
  · exact trivial
  all_goals
    exact .bind (guarded_markResumed _) fun _ => .bind (guarded_toData _ _) fun _ =>
      .bind (guarded_runTask (.inl List.mem_cons_self)) fun _ => guarded_ofData _

theorem guarded_call (v : Value) (args : List Value) : (v.call args).Guarded ops := by
  unfold call
  split
  · rename_i h
    have helping : Guarded (h.state :: ops) (do
        let args ← toData h.state args
        ofData (← callHelper h.state 2 (h.datum :: args))) :=
      .bind (guarded_toData _ _) fun _ => .bind (guarded_callHelper List.mem_cons_self _ _)
        fun _ => guarded_ofData _
    split
    · exact .bind h.guarded_checkOpen fun _ => .operation <| .bind (guarded_toData _ _) fun _ =>
        .bind (guarded_runTask (.inl List.mem_cons_self)) fun _ => guarded_ofData _
    · exact guarded_resume _ _
    · refine .bind h.guarded_checkOpen fun _ => .operation <| .next trivial fun found => ?_
      split
      · exact Native.guarded_call _ _ _
      · exact helping
    · refine .bind h.guarded_checkOpen fun _ => .operation <| .next trivial fun found => ?_
      split
      · exact trivial
      · exact helping
  · exact trivial

theorem guarded_length (v : Value) : v.length.Guarded ops := by
  unfold length
  split
  · exact trivial
  · split
    · exact .bind (Handle.guarded_checkOpen _) fun _ => .operation (.view _)
    · refine .bind (Handle.guarded_checkOpen _) fun _ => .operation <| .next trivial fun found => ?_
      split
      · split
        · exact Native.guarded_length _
        · exact trivial
      · exact trivial
    · exact trivial
  · exact trivial

theorem guarded_isEmpty (v : Value) : v.isEmpty.Guarded ops := by
  unfold isEmpty
  split
  · exact .bind (Handle.guarded_checkOpen _) fun _ => .operation (.view _)
  · exact .bind v.guarded_length fun _ => trivial

theorem guarded_shift (v : Value) (start count : Int64) (fill : Value) :
    (v.shift start count fill).Guarded ops := by
  unfold shift
  split
  · exact .bind (Handle.guarded_checkOpen _) fun _ => TableOps.guarded_shift _ _ _ _
  · exact trivial

theorem guarded_entries (v : Value) : v.entries.Guarded ops := by
  unfold entries
  split
  · exact .bind (Handle.guarded_checkOpen _) fun _ => TableOps.guarded_entries _ _
  · exact trivial

end Value

namespace State

theorem guarded_executeNamed (s : StateId) (name source : String) :
    (executeNamed s name source).Guarded ops := by
  refine .next trivial fun entry => .bind (.attempt <| .operation <|
    .bind (guarded_runTask (.inl List.mem_cons_self)) fun _ => Value.guarded_ofData _)
    fun result => ?_
  refine .next trivial fun after => .next trivial fun config => ?_
  split
  · exact trivial
  · exact .ofExcept _

theorem guarded_execute (s : StateId) (source : String) : (execute s source).Guarded ops :=
  .next trivial fun _ => guarded_executeNamed _ _ _

theorem guarded_globals (s : StateId) : (globals s).Guarded ops := by
  refine .operation <| .next trivial fun found => ?_
  split
  · exact Value.guarded_anchored _ _
  · exact trivial

theorem guarded_follow (path : String) (before : List String) (current : Value)
    (parts : List String) : (follow path before current parts).Guarded ops := by
  induction parts generalizing before current with
  | nil => exact trivial
  | cons segment rest ih =>
    simp only [follow]
    split
    · exact .bind (current.guarded_index _) fun _ => ih _ _
    · exact trivial

theorem guarded_get (s : StateId) (path : String) : (get s path).Guarded ops :=
  .operation <| .bind (.ofExcept _) fun _ => .bind (guarded_globals s) fun _ =>
    guarded_follow _ _ _ _

theorem guarded_makeWay (s : StateId) (path : String) (before : List String) (current : Value)
    (parts : List String) : (makeWay s path before current parts).Guarded ops := by
  induction parts generalizing before current with
  | nil => exact trivial
  | cons segment rest ih =>
    refine .bind (current.guarded_index _) fun next => ?_
    split
    · exact .bind (TableOps.guarded_newTable s) fun _ => .bind (current.guarded_setIndex _ _)
        fun _ => ih _ _
    · split
      · exact ih _ _
      · exact trivial

theorem guarded_set (s : StateId) (path : String) (value : Value) :
    (set s path value).Guarded ops :=
  .operation <| .bind (.ofExcept _) fun _ => .bind (guarded_globals s) fun _ =>
    .bind (guarded_makeWay _ _ _ _ _) fun table => table.guarded_setIndex _ _

theorem guarded_newSequence (s : StateId) (items : List Value) :
    (newSequence s items).Guarded ops :=
  .bind (TableOps.guarded_newTable s) fun table =>
    .bind (.forM fun (_, _) => table.guarded_setIndex _ _) fun _ => trivial

theorem guarded_createFunction (s : StateId) (f : HostFunction) :
    (createFunction s f).Guarded ops :=
  .operation <| .next trivial fun _ => Value.guarded_anchored _ _

theorem guarded_registerFunction (s : StateId) (path : String) (f : HostFunction) :
    (registerFunction s path f).Guarded ops :=
  .bind (guarded_createFunction s f) fun _ => guarded_set _ _ _

theorem guarded_newThread (s : StateId) (function : Value) :
    (newThread s function).Guarded ops := by
  unfold newThread
  split
  · exact trivial
  · split
    · exact trivial
    · exact .operation <| .next trivial fun _ => Value.guarded_anchored _ _

theorem guarded_metaType (s : StateId) (typeName : String) : (metaType s typeName).Guarded ops := by
  refine .next trivial fun found => ?_
  split
  · exact guarded_wrapNative _ _
  · exact trivial

theorem guarded_construct (s : StateId) (typeName : String) (args : List Value)
    (ownership : Ownership) : (construct s typeName args ownership).Guarded ops := by
  refine .next trivial fun found => ?_
  split
  · exact Class.guarded_construct _ _ _ _ _
  · exact trivial

theorem guarded_reapAll (n : Nat) : (reapAll n).Guarded ops := by
  induction n with
  | zero => exact trivial
  | succ n ih =>
    refine .next trivial fun found => ?_
    split
    · exact trivial
    · exact .bind (.forM guarded_releaseNative) fun _ => ih

theorem guarded_finalize (natives : List NativeId) : (finalize natives).Guarded ops :=
  .forM fun n => .bind (guarded_releaseNative n) fun _ => .next trivial fun _ => guarded_reapAll _

theorem guarded_collectGarbage (s : StateId) : (collectGarbage s).Guarded ops := by
  have sweeping : Guarded (s :: ops) (do finalize (← .perform (.sweep s))) :=
    .next trivial fun _ => guarded_finalize _
  exact .operation <| .next trivial fun _ => .bind (.within sweeping) fun _ => .within sweeping

end State

namespace HostFunction

theorem guarded_hostArgument (args : List Value) (index : Nat) (function : String) :
    (hostArgument args index function).Guarded ops := by
  refine .next trivial fun found => ?_
  split <;> exact trivial

theorem guarded_textArgument (args : List Value) (index : Nat) (function : String) :
    (textArgument args index function).Guarded ops := by
  unfold textArgument
  split <;> exact trivial

theorem guarded_tagged [Holding α] (tag : String) {body : Action α} (inside : body.Guarded ops) :
    (Action.tagged tag body).Guarded ops := by
  refine ⟨inside, ?_⟩
  rintro ((_ | _) | _) <;> exact trivial

theorem guarded_classArgument (v : Value) : (classArgument v).Guarded ops := by
  refine .next trivial fun found => ?_
  split
  · exact trivial
  · split
    · refine .next trivial fun found => ?_
      split <;> exact trivial
    · exact trivial

theorem guarded_makeObject (s : StateId) (args : List Value) : (makeObject s args).Guarded ops := by
  refine .bind (guarded_classArgument _) fun (c, creator) => .next trivial fun (args, parent) => ?_
  refine .bind (c.guarded_construct _ _ _ _) fun object => .next trivial fun found => ?_
  split
  · exact .next trivial fun _ => .bind (.ofExcept _) fun _ => trivial
  · exact trivial

theorem guarded_connectArguments (s : StateId) (args : List Value) :
    (connectArguments s args).Guarded ops := by
  refine .bind (guarded_hostArgument _ _ _) fun source => ?_
  refine .bind (guarded_textArgument _ _ _) fun signal => guarded_tagged _ ?_
  split
  · exact .discard (Host.guarded_connect _ _ _ _)
  · exact .bind (guarded_hostArgument _ _ _) fun _ => .bind (guarded_textArgument _ _ _) fun _ =>
      .discard (Host.guarded_connectSlot _ _ _ _)
  · exact trivial

theorem guarded_disconnectArguments (args : List Value) :
    (disconnectArguments args).Guarded ops := by
  refine .bind (guarded_hostArgument _ _ _) fun source => ?_
  refine .bind (guarded_textArgument _ _ _) fun signal => guarded_tagged _ ?_
  split
  · exact Host.guarded_disconnect _ _ _
  · exact Host.guarded_disconnect _ _ _
  · exact .bind (guarded_hostArgument _ _ _) fun _ => .bind (guarded_textArgument _ _ _) fun _ =>
      Host.guarded_disconnectSlot _ _ _ _
  · exact trivial

theorem guarded_propertyList (s : StateId) (v : Value) : (propertyList s v).Guarded ops := by
  refine .next trivial fun found => ?_
  split
  · exact .next trivial fun _ => State.guarded_newSequence _ _
  · exact trivial

theorem guarded_run (s : StateId) (f : HostFunction) (args : List Value) :
    (f.run s args).Guarded ops := by
  cases f with
  | newObject => exact .bind (guarded_tagged _ (guarded_makeObject _ _)) fun _ => trivial
  | connect => exact .bind (guarded_connectArguments _ _) fun _ => trivial
  | connectSlotsByName =>
    exact .bind (guarded_hostArgument _ _ _) fun _ =>
      .bind (guarded_tagged _ (Host.guarded_connectByName _)) fun _ => trivial
  | disconnect => exact .bind (guarded_disconnectArguments _) fun _ => trivial
  | metaType => exact .next trivial fun _ => .bind (.ofExcept _) fun _ => trivial
  | typeOf => exact .next trivial fun _ => trivial
  | propertyNames => exact .bind (guarded_propertyList _ _) fun _ => trivial
  | vec2 => exact .bind (.ofExcept _) fun _ => .bind (guarded_wrapNative _ _) fun _ => trivial
  | native =>
    exact .bind (.ofExcept _) fun _ => .bind (.ofExcept _) fun _ =>
      .bind (guarded_wrapNative _ _) fun _ => trivial
  | add => exact .bind (.ofExcept _) fun _ => trivial
  | frames => exact .view _
  | call => exact Value.guarded_call _ _
  | exec => exact .bind (.ofExcept _) fun _ => State.guarded_execute _ _
  | get => exact .bind (.ofExcept _) fun _ => .bind (State.guarded_get _ _) fun _ => trivial
  | log => exact .next trivial fun _ => .bind (.ofExcept _) fun _ => .next trivial fun _ => trivial
  | _ => exact trivial

end HostFunction

namespace Script

variable (s : StateId)

theorem guarded_argumentOf (e : NativeEvent) (position : Nat) (d : Datum) :
    (argumentOf e position d).Guarded ops := by
  unfold argumentOf
  split
  · exact trivial
  · exact .bind (Value.guarded_ofDatum _) fun _ => trivial

theorem guarded_oneDatum (v : Value) : (oneDatum s v).Guarded ops :=
  .bind (v.guarded_toDatum s) fun _ => trivial

theorem guarded_indexNative (native : Native) (key : Datum) :
    (indexNative s native key).Guarded ops := by
  refine .bind (guarded_argumentOf _ _ _) fun key => ?_
  split
  · exact trivial
  · exact .bind (native.guarded_index s _) fun _ => guarded_oneDatum s _

theorem guarded_assignNative (n : NativeId) (native : Native) (key value : Datum) :
    (assignNative n native key value).Guarded ops := by
  refine .bind (guarded_argumentOf _ _ _) fun key => ?_
  split
  · exact trivial
  · refine .bind (guarded_argumentOf _ _ _) fun value => ?_
    split
    · exact trivial
    · exact .bind (native.guarded_assign _ _ _) fun _ => trivial

theorem guarded_operateNative (op : Operator) (left right : Datum) :
    (operateNative s op left right).Guarded ops := by
  refine .bind (guarded_argumentOf _ _ _) fun left => ?_
  split
  · exact trivial
  · refine .bind (guarded_argumentOf _ _ _) fun right => ?_
    split
    · exact trivial
    · exact .bind (Native.guarded_dispatch _ _ _ _) fun _ => guarded_oneDatum s _

theorem guarded_runMember (event : NativeEvent) (args : List Datum) :
    (runMember s event args).Guarded ops := by
  unfold runMember
  dsimp only
  split
  · exact guarded_operateNative s _ _ _
  · refine .next trivial fun found => ?_
    split
    · exact trivial
    · split
      · exact guarded_indexNative s _ _
      · exact guarded_assignNative _ _ _ _
      · exact .bind (Value.guarded_ofData _) fun _ => .bind (Native.guarded_call _ _ _) fun _ =>
          .bind (Value.guarded_toData _ _) fun _ => trivial
      · exact .bind (Native.guarded_measure _) fun _ => trivial
      · exact .next trivial fun _ => trivial
      · exact guarded_operateNative s _ _ _

theorem guarded_runHost (f : HostFunction) (args : List Datum) :
    (runHost s f args).Guarded ops :=
  .bind (Value.guarded_ofData args) fun values => .bind (f.guarded_run s values) fun _ =>
    .bind (Value.guarded_toData _ _) fun _ => trivial

/-- All that an engine does for a task is allowed in an operation on its state. -/
theorem guarded_runTask {s : StateId} (own : s ∈ ops) (task : Task) :
    (runTask s task).Guarded ops := by
  refine .of_scripted own (fun native => ?_) (scripted_runTask task)
  cases native with
  | host f => exact guarded_runHost s f _
  | member event => exact guarded_runMember s event _

end Script

theorem Connection.guarded_deliver (c : Connection) (sender : ObjectId) (args : List HostValue) :
    (c.deliver sender args).Guarded ops := by
  unfold Connection.deliver
  split
  · refine .next trivial fun isOpen => ?_
    split
    · exact .bind (guarded_wrapObject _ _ _) fun _ =>
        .bind (.mapM (HostValue.guarded_toValue _)) fun _ => .discard (Value.guarded_call _ _)
    · exact trivial
  · refine .next trivial fun isDestroyed => ?_
    split
    · exact trivial
    · exact .discard (Behaviour.guarded_run _ _ _ _)

/-- A program that carries out a request is allowed where the request is; one that sets a state up, not
in an operation on it, is allowed as if it were in one. -/
theorem Request.Begins.guarded {r : Request β} {w w₁ : World} {a : Action β}
    (begins : r.Begins w a w₁) (allowed : r.Guarded ops) :
    a.Guarded ops ∨ ∃ s, r.SetsUp s ∧ s ∉ ops ∧ a.Guarded (s :: ops) := by
  cases begins with
  | program =>
    cases r with
    | script s task =>
      by_cases own : s ∈ ops
      · exact .inl (Script.guarded_runTask own task)
      · exact .inr ⟨s, ⟨rfl, allowed.resolve_left own⟩, own,
          Script.guarded_runTask List.mem_cons_self task⟩
    | deliver => exact .inl (Connection.guarded_deliver _ _ _)
    | destroy => exact .inl (guarded_destroyObject _)
    | collect => exact .inl trivial
  | refused => exact .inl (.ofResult _)
  | collected => exact .inl (.within (State.guarded_finalize _))

end

end ScriptBridge
