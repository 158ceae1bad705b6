import ScriptBridge.Execution
import ScriptBridge.Proofs.States

/-!
Opening a state fills its engine with what belongs to it.
-/

namespace ScriptBridge

open ScriptBridge.Action (Respects Safe)
open Script (Content Datum)

namespace Script.Content

def refs : Content → List Ref
  | .function b => b.refs
  | .constant d => d.refs
  | .table | .file => []

theorem refs_base : ∀ entry ∈ base, entry.2.refs = [] := by
  decide

theorem refs_ofLibrary (library : Library) : ∀ entry ∈ ofLibrary library, entry.2.refs = [] := by
  cases library <;> decide

theorem refs_fileMethods : ∀ entry ∈ fileMethods, entry.2.refs = [] := by
  decide

end Script.Content

namespace State

variable {s : StateId}

/-- Entries of a table that belongs to a state. -/
def OwnedEntries (s : StateId) (entries : List (Datum × Datum)) : Prop :=
  ∀ k v, (k, v) ∈ entries → Owned s k.refs ∧ Owned s v.refs

theorem respects_newCell {cell : Script.Cell} (allowed : ∀ w, (Op.allocate s cell).Allowed w) :
    (newCell s cell).Respects fun r => r.owner = s :=
  .perform (fun w _ => allowed w) fun _ _ => rfl

theorem respects_newTableOf {entries : List (Datum × Datum)} (own : OwnedEntries s entries) :
    (newTableOf s entries).Respects fun r => r.owner = s := by
  refine respects_newCell fun _ => Owned.append_iff.mpr ⟨?_, by simp⟩
  exact Script.Table.foldl_set_owned Script.Table.owned_empty own

theorem respects_contentDatum {content : Content} (plain : content.refs = []) :
    (contentDatum s content).Respects fun d => Owned s d.refs := by
  have own : Owned s content.refs := by
    rw [plain]
    exact Owned.nil
  have held {r : Ref} {d : Datum} (own : r.owner = s) (same : d.refs = [r]) : Owned s d.refs := by
    simpa [same] using own
  cases content with
  | function b =>
    exact .bind (respects_newCell fun _ => own) fun r own => .pure (held own rfl)
  | constant d => exact .pure own
  | table =>
    refine .bind (respects_newTableOf (by simp [OwnedEntries])) fun r own => ?_
    exact .pure (held own rfl)
  | file =>
    refine .bind (respects_newCell fun _ => Owned.nil) fun r own => ?_
    exact .pure (held own rfl)

theorem respects_contentEntries {names : List (String × Content)}
    (plain : ∀ entry ∈ names, entry.2.refs = []) :
    (contentEntries s names).Respects (OwnedEntries s) := by
  have each (entry : String × Content) (member : entry ∈ names) :
      (do pure (Datum.str entry.1, ← contentDatum s entry.2) : Action (Datum × Datum)).Respects
        fun pair => Owned s pair.1.refs ∧ Owned s pair.2.refs :=
    .bind (respects_contentDatum (plain entry member)) fun d own => .pure ⟨by simp, own⟩
  exact (Respects.mapM each).mono fun entries all k v member => all (k, v) member

theorem safe_equipLibrary {library : Library} {table : Ref} (own : table.owner = s) :
    (equipLibrary s library table).Safe := by
  cases library with
  | string =>
    refine .bind (respects_newTableOf ?_) fun metatable ownMeta => .act fun _ _ => ?_
    · simpa [OwnedEntries] using own
    · simpa [Op.Allowed, Op.Permitted, Equipment.refs] using ownMeta
  | io =>
    have methods := respects_contentEntries (s := s) Script.Content.refs_fileMethods
    refine .bind methods fun entries ownEntries => ?_
    refine .bind (respects_newTableOf ownEntries) fun methods ownMethods => ?_
    refine .bind (respects_newTableOf ?_) fun metatable ownMeta => .act fun _ _ => ?_
    · intro k v member
      rcases List.mem_cons.mp member with first | member
      · obtain ⟨rfl, rfl⟩ := Prod.mk.inj first
        simpa using ownMethods
      · obtain ⟨rfl, rfl⟩ : k = .str "__name" ∧ v = .str "FILE*" := by simpa using member
        simp
    · simpa [Op.Allowed, Op.Permitted, Equipment.refs] using ownMeta
  | _ => exact .pure trivial

theorem respects_openLibrary (library : Library) :
    (openLibrary s library).Respects fun pair => Owned s pair.1.refs ∧ Owned s pair.2.refs := by
  have contents := respects_contentEntries (s := s) (Script.Content.refs_ofLibrary library)
  refine .bind contents fun entries own => ?_
  refine .bind (respects_newTableOf own) fun table ownTable => ?_
  refine .bind (safe_equipLibrary ownTable) fun _ _ => .pure ⟨by simp, ?_⟩
  simpa using ownTable

theorem safe_openLibraries {globals : Ref} (own : globals.owner = s) (libraries : List Library) :
    (openLibraries s globals libraries).Safe := by
  refine .bind (respects_contentEntries Script.Content.refs_base) fun base ownBase => ?_
  refine .bind (Respects.mapM fun library _ => respects_openLibrary library) ?_
  intro tables ownTables
  extract_lets ownEntries rest
  have going (extra : List (Datum × Datum)) (ownExtra : OwnedEntries s extra) :
      (rest extra).Safe := by
    refine .act fun _ _ => Owned.append_iff.mpr ⟨?_, by simp⟩
    rw [own]
    refine Script.Table.foldl_set_owned Script.Table.owned_empty fun k v member => ?_
    simp only [List.mem_append, or_assoc] at member
    rcases member with inBase | inTables | inExtra | inOwn
    · exact ownBase k v inBase
    · exact ownTables (k, v) inTables
    · exact ownExtra k v inExtra
    · obtain ⟨rfl, rfl⟩ : k = .str "_G" ∧ v = .table globals := by simpa [ownEntries] using inOwn
      simpa using own
  split
  · refine .bind (respects_contentEntries ?_) going
    decide
  · exact going [] (by simp [OwnedEntries])

theorem functionRefs_owned {data : List Datum} (own : Script.OwnedData s data) :
    Owned s (functionRefs data) := by
  intro r member
  obtain ⟨d, inData, same⟩ := List.mem_filterMap.mp member
  cases d with
  | function f =>
    obtain rfl := Option.some.inj same
    simpa using own _ inData
  | _ => simp at same

theorem safe_installHelpers (s : StateId) : (installHelpers s).Safe :=
  .bind (respects_runTask (by simp [Task.refs, Script.refsOf])) fun _ own =>
    .act fun _ _ => functionRefs_owned own

theorem safe_installEach {globals : Ref} (own : globals.owner = s) :
    (installEach s globals).Safe := by
  refine .bind (respects_newCell fun _ => Owned.nil) fun names ownNames => ?_
  refine .bind (respects_runTask ?_) fun data ownData => .discard (respects_runTask ?_)
  · simpa [Task.refs, Script.refsOf] using ownNames
  · exact Owned.append_iff.mpr ⟨by simpa using own, ownData.headD⟩

theorem safe_installHostLibrary {globals : Ref} (own : globals.owner = s) (config : HostLibConfig) :
    (installHostLibrary s globals config).Safe := by
  refine .bind (safe_wrapNative s (by simp [Native.IsWrapper])) fun v _ => ?_
  refine .bind (safe_set s _ v) fun _ _ => ?_
  refine .bind (P := fun _ => True) (.forM fun entry _ => safe_registerFunction s _ entry.2) ?_
  intro _ _
  split
  · exact safe_installEach own
  · exact .pure trivial

theorem safe_equip (s : StateId) (config : Config) : (equip s config).Safe := by
  refine .bind (P := fun found => ∀ r, found = some r → r.owner = s) (.view ?_) ?_
  · intro w ⟨isolated, _⟩ r found
    obtain ⟨e, engine, rfl⟩ := Option.map_eq_some_iff.mp found
    exact isolated.globals engine
  · intro found ownFound
    split
    · exact .throw _
    · rename_i globals
      have own := ownFound globals rfl
      refine .bind (safe_openLibraries own _) fun _ _ => .bind (safe_installHelpers s) fun _ _ => ?_
      refine .of_view fun w _ => ?_
      refine .bind (P := fun _ => True) (.forM fun entry _ => safe_registerFunction s _ entry.2) ?_
      intro _ _
      split
      · exact safe_installHostLibrary own _
      · exact .pure trivial

/-- Opening a state keeps engines apart. -/
theorem safe_openState (config : Config) : (openState config).Safe := by
  refine .bind (P := fun _ => True) (.act fun _ _ => trivial) fun s _ => ?_
  refine .bind (Respects.attempt (safe_equip s config)) fun result _ => ?_
  split
  · exact .pure trivial
  · exact .bind (.discard (safe_close s)) fun _ _ => .throw _

end State

namespace RunConfig

theorem safe_runIn (c : RunConfig) (s : StateId) (chunkName source : String) :
    (c.runIn s chunkName source).Safe := by
  refine .bind (State.safe_executeNamed s _ _) fun values _ => ?_
  extract_lets result checked
  have last : (result PUnit.unit).Safe := .pure trivial
  have checks : (checked PUnit.unit).Safe := by
    unfold checked
    split
    · refine .of_view fun _ _ => ?_
      exact .bind (P := fun _ => True) (.ofExcept fun _ _ => trivial) fun _ _ => last
    · exact last
  split
  · exact .bind (State.safe_collectGarbage s) fun _ _ => checks
  · exact checks

/-- A run of a program in a state of its own keeps engines apart. -/
theorem safe_runNamed (c : RunConfig) (chunkName source : String) :
    (c.runNamed chunkName source).Safe := by
  refine .bind (State.safe_openState _) fun s _ => ?_
  refine .bind (Respects.attempt (c.safe_runIn s chunkName source)) fun result _ => ?_
  split
  · exact .pure trivial
  · exact .bind (.discard (State.safe_close s)) fun _ _ => .throw _

end RunConfig

end ScriptBridge
