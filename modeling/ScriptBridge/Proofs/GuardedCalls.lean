import ScriptBridge.Proofs.Guards
import ScriptBridge.Proofs.Session

/-!
Opening a state is allowed outside of all operations only, and so are the calls of the program around
the bridge: each of them begins where no operation is in progress.
-/

namespace ScriptBridge

open ScriptBridge.Action (Guarded)
open Script (Datum)

namespace State

section Opening

variable {ops : List StateId} (s : StateId)

theorem guarded_newTableOf (entries : List (Datum × Datum)) : (newTableOf s entries).Guarded ops :=
  .perform trivial

theorem guarded_contentEntries (names : List (String × Script.Content)) :
    (contentEntries s names).Guarded ops := by
  refine .mapM fun (name, content) => .bind ?_ fun _ => trivial
  cases content with
  | constant => exact trivial
  | function | table | file => exact .bind (.perform trivial) fun _ => trivial

theorem guarded_equipLibrary (library : Library) (table : Ref) :
    (equipLibrary s library table).Guarded ops := by
  cases library with
  | string => exact .bind (guarded_newTableOf s _) fun _ => .perform trivial
  | io =>
    exact .bind (guarded_contentEntries s _) fun _ => .bind (guarded_newTableOf s _) fun _ =>
      .bind (guarded_newTableOf s _) fun _ => .perform trivial
  | _ => exact trivial

theorem guarded_openLibraries (globals : Ref) (libraries : List Library) :
    (openLibraries s globals libraries).Guarded ops := by
  have each (library : Library) : (openLibrary s library).Guarded ops :=
    .bind (guarded_contentEntries s _) fun _ => .bind (guarded_newTableOf s _) fun _ =>
      .bind (guarded_equipLibrary s _ _) fun _ => trivial
  refine .bind (guarded_contentEntries s _) fun base => .bind (.mapM each) fun tables => ?_
  extract_lets own rest
  have going (extra : List (Datum × Datum)) : (rest extra).Guarded ops := .perform trivial
  split
  · exact .bind (guarded_contentEntries s _) going
  · exact going []

theorem guarded_installHelpers : (installHelpers s).Guarded ops :=
  .bind (guarded_runTask (.inr (.inl rfl))) fun _ => .perform trivial

theorem guarded_installEach (globals : Ref) : (installEach s globals).Guarded ops :=
  .next trivial fun _ => .bind (guarded_runTask (.inr (.inr rfl))) fun _ =>
    .discard (guarded_runTask (.inr rfl))

theorem guarded_equip (config : Config) : (equip s config).Guarded ops := by
  refine .next trivial fun found => ?_
  split
  · exact trivial
  · refine .bind (guarded_openLibraries s _ _) fun _ => .bind (guarded_installHelpers s) fun _ => ?_
    refine .next trivial fun functions => ?_
    refine .bind (.forM fun (_, _) => guarded_registerFunction _ _ _) fun _ => ?_
    split
    · refine .bind (guarded_wrapNative _ _) fun types => .bind (guarded_set _ _ _) fun _ => ?_
      refine .bind (.forM fun (_, _) => guarded_registerFunction _ _ _) fun _ => ?_
      split
      · exact guarded_installEach s _
      · exact trivial
    · exact trivial

end Opening

theorem guarded_close (s : StateId) : (close s).Guarded [] := by
  refine .next trivial fun isOpen => ?_
  split
  · exact .bind (.within <| .next rfl fun _ => guarded_finalize _) fun _ => trivial
  · exact trivial

theorem guarded_openState (config : Config) : (openState config).Guarded [] := by
  refine .next rfl fun s => .bind (.attempt (guarded_equip s config)) fun result => ?_
  split
  · exact trivial
  · exact .bind (.discard (guarded_close s)) fun _ => trivial

end State

theorem RunConfig.guarded_runNamed (c : RunConfig) (chunkName source : String) :
    (c.runNamed chunkName source).Guarded [] := by
  have inside (s : StateId) : (c.runIn s chunkName source).Guarded [] := by
    refine .bind (State.guarded_executeNamed _ _ _) fun values => ?_
    extract_lets last rest
    have ending (u : PUnit) : (last u).Guarded [] := trivial
    have checked (u : PUnit) : (rest u).Guarded [] := by
      unfold rest
      split
      · exact .next trivial fun _ => .bind (.ofExcept _) ending
      · exact ending ⟨⟩
    split
    · exact .bind (State.guarded_collectGarbage s) checked
    · exact checked ⟨⟩
  refine .bind (State.guarded_openState _) fun s => .bind (.attempt (inside s)) fun result => ?_
  split
  · exact trivial
  · exact .bind (.discard (State.guarded_close s)) fun _ => trivial

/-- Outside of all operations all is allowed that the program around the bridge may ask for. -/
theorem Call.guarded_program (call : Call) : call.program.Guarded [] := by
  have silent {α : Type} {a : Action α} (guarded : a.Guarded []) :
      Guarded [] (do
        discard a
        pure ({} : Gains)) :=
    .bind (.discard guarded) fun _ => trivial
  cases call with
  | openState => exact silent (State.guarded_openState _)
  | close => exact silent (State.guarded_close _)
  | execute => exact .bind (State.guarded_execute _ _) fun _ => trivial
  | executeNamed => exact .bind (State.guarded_executeNamed _ _ _) fun _ => trivial
  | run c => exact .bind (c.guarded_runNamed _ _) fun _ => trivial
  | globals => exact .map (State.guarded_globals _)
  | get => exact .map (State.guarded_get _ _)
  | set => exact silent (State.guarded_set _ _ _)
  | newTable => exact .map (TableOps.guarded_newTable _)
  | newSequence => exact .map (State.guarded_newSequence _ _)
  | createFunction => exact .map (State.guarded_createFunction _ _)
  | registerFunction => exact silent (State.guarded_registerFunction _ _ _)
  | newThread => exact .map (State.guarded_newThread _ _)
  | native => exact .bind (.ofExcept _) fun _ => .map (guarded_wrapNative _ _)
  | typeObject => exact .map (guarded_wrapNative _ _)
  | metaType => exact .map (State.guarded_metaType _ _)
  | construct => exact .map (State.guarded_construct _ _ _ _)
  | wrap => exact .map (guarded_wrapObject _ _ _)
  | toValue => exact .map (HostValue.guarded_toValue _ _)
  | collectGarbage => exact silent (State.guarded_collectGarbage _)
  | index => exact .map (Value.guarded_index _ _)
  | setIndex => exact silent (Value.guarded_setIndex _ _ _)
  | call => exact .bind (Value.guarded_call _ _) fun _ => trivial
  | length => exact silent (Value.guarded_length _)
  | isEmpty => exact silent (Value.guarded_isEmpty _)
  | shift => exact silent (Value.guarded_shift _ _ _ _)
  | entries => exact .bind (Value.guarded_entries _) fun _ => trivial
  | setEntry =>
    exact .bind (.bind (Value.guarded_setIndex _ _ _) fun _ => trivial) fun _ => trivial
  | fromValue => exact silent (HostType.guarded_fromValue _ _)
  | newObject => exact .map (.perform trivial)
  | instantiate => exact .map (Class.guarded_instantiate _ _ _)
  | setParent => exact .next trivial fun _ => .bind (.ofExcept _) fun _ => trivial
  | destroy => exact silent (.ask trivial)
  | emit => exact silent (Host.guarded_emit _ _ _)
  | connect => exact silent (Host.guarded_connect _ _ _ _)
  | connectSlot => exact silent (Host.guarded_connectSlot _ _ _ _)
  | connectByName => exact silent (Host.guarded_connectByName _)
  | disconnect => exact silent (Host.guarded_disconnect _ _ _)
  | disconnectSlot => exact silent (Host.guarded_disconnectSlot _ _ _ _)
  | hold => exact trivial
  | rename | disconnectId | registerType | registerGlobal | takeLog | letGo =>
    exact silent (.perform trivial)

/-- So are all steps of a session. -/
theorem Step.guarded_program (step : Step) : step.program.Guarded [] := by
  have keeping (g : Gains) : (g.keep step.names).Guarded [] :=
    .bind (.forM fun (_, _) => .perform trivial) fun _ =>
      .bind (.forM fun (_, _) => .perform trivial) fun _ =>
        .forM fun (_, _) => .perform trivial
  exact .bind (.attempt (.bind step.call.guarded_program keeping)) fun _ =>
    .bind (.within (.next trivial fun _ => State.guarded_reapAll _)) fun _ => trivial

end ScriptBridge
