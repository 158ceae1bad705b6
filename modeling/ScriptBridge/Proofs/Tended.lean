import ScriptBridge.Proofs.Errands
import ScriptBridge.Proofs.Session

/-!
Sessions in which the program around the bridge keeps hold of what it uses: it calls for states that
have been opened, with handles that it keeps, and for plain classes. Wherever one looks at such a
session, all that the world holds is anchored.
-/

namespace ScriptBridge

open ScriptBridge.Action (Careful Grants Lends Secures SecuresAt Upholds)
open Script (Datum OwnedData)

section Opening

variable {ss : List StateId} {hs : List Handle} {s : StateId}

namespace State

/-- A new cell of a state being opened. -/
theorem careful_newTableOf (s : StateId) (entries : List (Datum × Datum)) :
    (newTableOf s entries).Careful ss hs :=
  .act trivial

theorem careful_contentEntries (s : StateId) (names : List (String × Script.Content)) :
    (contentEntries s names).Careful ss hs := by
  refine .carefulM fun (name, content) _ => .after (P := fun _ _ => True) ?_ fun _ => .done _
  cases content with
  | constant => exact .done _
  | function | table | file => exact .next trivial fun _ => .done _

theorem careful_equipLibrary (s : StateId) (library : Library) (table : Ref) :
    (equipLibrary s library table).Careful ss hs := by
  cases library with
  | string => exact .after (careful_newTableOf s _) fun _ => .act trivial
  | io =>
    exact .after (careful_contentEntries s _) fun _ => .after (careful_newTableOf s _) fun _ =>
      .after (careful_newTableOf s _) fun _ => .act trivial
  | _ => exact .done _

theorem careful_openLibraries (s : StateId) (globals : Ref) (libraries : List Library) :
    (openLibraries s globals libraries).Careful ss hs := by
  have each (library : Library) : (openLibrary s library).Careful ss hs :=
    .after (careful_contentEntries s _) fun _ => .after (careful_newTableOf s _) fun _ =>
      .after (careful_equipLibrary s _ _) fun _ => .done _
  refine .after (careful_contentEntries s _) fun base => .after (.carefulM fun l _ => each l) fun tables => ?_
  extract_lets own rest
  have going (extra : List (Datum × Datum)) : (rest extra).Careful ss hs := .act trivial
  split
  · exact .after (careful_contentEntries s _) going
  · exact going []

variable (opened : s ∈ ss)
include opened

theorem careful_installHelpers : (installHelpers s).Careful ss hs :=
  .after (secures_runTask opened _) fun _ => .act trivial

theorem careful_installEach (globals : Ref) : (installEach s globals).Careful ss hs :=
  .next trivial fun _ => .after (secures_runTask opened _) fun _ => (secures_runTask opened _).discard

theorem careful_installHostLibrary (globals : Ref) (config : HostLibConfig) :
    (installHostLibrary s globals config).Careful ss hs := by
  refine .gain (grants_wrapNative opened trivial (List.nil_subset _)) fun types => ?_
  refine .after (careful_set opened _ (List.subset_append_left ..)) fun _ => ?_
  refine .after (.forM fun (_, _) _ => careful_registerFunction opened _ _) fun _ => ?_
  split
  · exact careful_installEach opened _
  · exact .done _

theorem careful_equip (config : Config) : (equip s config).Careful ss hs := by
  refine .look fun found => ?_
  split
  · exact .throw _
  · refine .after (careful_openLibraries s _ _) fun _ => ?_
    refine .after (careful_installHelpers opened) fun _ => .look fun functions => ?_
    refine .after (.forM fun (_, _) _ => careful_registerFunction opened _ _) fun _ => ?_
    split
    · exact careful_installHostLibrary opened _ _
    · exact .done _

omit opened

/-- A state that is given has been opened. -/
theorem secures_openState (config : Config) :
    (openState config).Secures ss hs fun w s => s < w.engines.next := by
  have opens : Secures ss hs (.perform (.openEngine config)) fun w s => s < w.engines.next :=
    fun w _ => SecuresAt.next (o := .openEngine config) trivial trivial
      (.pure (Nat.lt_of_lt_of_eq (Nat.lt_succ_self _) (Store.next_add ..).symm))
  refine .bind opens fun s w ready below => ?_
  have inState : w.Ready ([s] ++ ss) hs := ready.states (List.forall_mem_singleton.mpr below)
  refine Secures.after (.attempt (.lendsNothing (careful_equip List.mem_cons_self config) fun _ => rfl))
    (fun result => ?_) w inState
  split
  · exact .pure fun _ ready => ready.opened s List.mem_cons_self
  · exact .after (careful_close s).discard fun _ => .throw _

end State

theorem RunConfig.grants_runIn (c : RunConfig) (opened : s ∈ ss) (chunkName source : String) :
    (c.runIn s chunkName source).Grants ss hs := by
  refine .gain (State.grants_executeNamed opened _ _) fun values => ?_
  extract_lets last rest
  have ending (u : PUnit) : (last u).Grants ss (handles values ++ hs) :=
    .pure fun _ ready => ready.lasting.subset (List.subset_append_left ..)
  have checked (u : PUnit) : (rest u).Grants ss (handles values ++ hs) := by
    unfold rest
    split
    · exact .look fun _ => .after (.check _) ending
    · exact ending ⟨⟩
  split
  · exact .after (State.careful_collectGarbage s) checked
  · exact checked ⟨⟩

theorem RunConfig.grants_runNamed (c : RunConfig) (chunkName source : String) :
    (c.runNamed chunkName source).Grants ss hs := by
  refine .bind (State.secures_openState _) fun s w ready below => ?_
  have inState : w.Ready ([s] ++ ss) hs := ready.states (List.forall_mem_singleton.mpr below)
  refine Secures.gain (.attempt (.lends (c.grants_runIn List.mem_cons_self _ _)))
    (fun result => ?_) w inState
  split
  · exact .pure fun _ ready => ready.lasting.subset (List.subset_append_left ..)
  · exact .after (State.careful_close s).discard fun _ => .throw _

end Opening

namespace Call

/-- The handles in what the program around the bridge asks for. -/
def handles : Call → List Handle
  | .set _ _ v | .newThread _ v | .length v | .isEmpty v | .entries v | .fromValue _ v | .hold v
  | .connect _ _ _ v => ScriptBridge.handles v
  | .newSequence _ values | .native _ _ values | .construct _ _ values _
  | .instantiate _ _ values => ScriptBridge.handles values
  | .toValue _ v => ScriptBridge.handles v
  | .emit _ _ args => ScriptBridge.handles args
  | .index v key => ScriptBridge.handles v ++ ScriptBridge.handles key
  | .setIndex v key value =>
    ScriptBridge.handles v ++ ScriptBridge.handles key ++ ScriptBridge.handles value
  | .call v args => ScriptBridge.handles v ++ ScriptBridge.handles args
  | .shift v _ _ fill => ScriptBridge.handles v ++ ScriptBridge.handles fill
  | .setEntry e value => ScriptBridge.handles e ++ ScriptBridge.handles value
  | .disconnect _ _ callable => ScriptBridge.handles callable
  | _ => []

/-- The states that are named in it. -/
def states : Call → List StateId
  | .close s | .execute s _ | .executeNamed s _ _ | .globals s | .get s _ | .set s _ _ | .newTable s
  | .newSequence s _ | .createFunction s _ | .registerFunction s _ _ | .newThread s _ | .native s _ _
  | .typeObject s _ _ | .metaType s _ | .construct s _ _ _ | .wrap s _ _ | .toValue s _
  | .collectGarbage s | .connect s _ _ _ => [s]
  | _ => []

/-- The classes that come with it. -/
def classes : Call → List Class
  | .typeObject _ cls _ | .newObject cls _ | .instantiate cls _ _ | .registerType cls _ => [cls]
  | _ => []

/-- Whether the program around the bridge may ask for something: it keeps the handles that it uses, the
states have been opened, and the classes are plain. -/
structure Tended (call : Call) (w : World) : Prop where
  held : call.handles ⊆ ScriptBridge.handles w.holdings
  opened : ∀ s ∈ call.states, s < w.engines.next
  plain : ∀ c ∈ call.classes, c.HandleFree

instance (c : Class) : Decidable c.HandleFree := inferInstanceAs (Decidable (c.handles = []))

instance (call : Call) (w : World) : Decidable (call.Tended w) :=
  decidable_of_iff ((∀ h ∈ call.handles, h ∈ ScriptBridge.handles w.holdings) ∧
      (∀ s ∈ call.states, s < w.engines.next) ∧ ∀ c ∈ call.classes, c.HandleFree)
    ⟨fun ⟨held, opened, plain⟩ => ⟨fun h => held h, opened, plain⟩,
      fun tended => ⟨fun h => @tended.held h, tended.opened, tended.plain⟩⟩

end Call

namespace Gains

@[simp] theorem handles_values (values : List Value) : handles ({ values } : Gains) = handles values :=
  List.append_nil _

@[simp] theorem handles_value (v : Value) : handles (Gains.value v) = handles v :=
  (handles_values [v]).trans (handles_singleton v)

@[simp] theorem handles_entries (entries : List Entry) :
    handles ({ entries := [entries] } : Gains) = handles entries :=
  handles_singleton entries

end Gains

namespace Call

variable {ss : List StateId} {hs : List Handle}

private theorem grants_silent {a : Action α} (careful : a.Careful ss hs) : Grants ss hs (do
    discard a
    pure ({} : Gains)) :=
  .after careful.discard fun _ => .pure fun _ _ => List.forall_mem_nil _

private theorem grants_value {a : Action Value} (grants : a.Grants ss hs) :
    (Gains.value <$> a).Grants ss hs :=
  grants.map fun v _ _ lasting => (Gains.handles_value v).symm ▸ lasting

private theorem grants_values {a : Action (List Value)} (grants : a.Grants ss hs) : Grants ss hs (do
    pure ({ values := ← a } : Gains)) :=
  .gain grants fun values => .pure fun _ ready => ready.lasting.subset
    ((Gains.handles_values values).symm ▸ List.subset_append_left ..)

private theorem grants_entries {a : Action (List Entry)} (grants : a.Grants ss hs) : Grants ss hs (do
    pure ({ entries := [← a] } : Gains)) :=
  .gain grants fun entries => .pure fun _ ready => ready.lasting.subset
    ((Gains.handles_entries entries).symm ▸ List.subset_append_left ..)

private theorem grants_object {a : Action ObjectId} (careful : a.Careful ss hs) :
    (Gains.object <$> a).Grants ss hs :=
  careful.map fun _ _ _ _ => List.forall_mem_nil _

/-- What a call gives lasts, unless it lets go of something. -/
theorem grants_program {call : Call} (keeps : ∀ name, call ≠ .letGo name) (own : call.handles ⊆ hs)
    (opened : ∀ s ∈ call.states, s ∈ ss) (plain : ∀ c ∈ call.classes, c.HandleFree) : call.program.Grants ss hs := by
  have inState {s : StateId} (named : call.states = [s]) : s ∈ ss :=
    opened s (named ▸ List.mem_singleton_self s)
  have plainClass {c : Class} (given : call.classes = [c]) : c.HandleFree :=
    plain c (given ▸ List.mem_singleton_self c)
  cases call with
  | openState => exact grants_silent (State.secures_openState _).careful
  | close => exact grants_silent (State.careful_close _)
  | execute => exact grants_values (State.grants_execute (inState rfl) _)
  | executeNamed => exact grants_values (State.grants_executeNamed (inState rfl) _ _)
  | run c =>
    refine .gain (c.grants_runNamed _ _) fun output => .pure fun _ ready => ready.lasting.subset ?_
    exact (Gains.handles_values output.values).symm ▸ List.subset_append_left ..
  | globals => exact grants_value (State.grants_globals (inState rfl))
  | get => exact grants_value (State.grants_get (inState rfl) _)
  | set => exact grants_silent (State.careful_set (inState rfl) _ own)
  | newTable => exact grants_value (TableOps.grants_newTable (inState rfl))
  | newSequence => exact grants_value (State.grants_newSequence (inState rfl) own)
  | createFunction => exact grants_value (State.grants_createFunction (inState rfl) _)
  | registerFunction => exact grants_silent (State.careful_registerFunction (inState rfl) _ _)
  | newThread => exact grants_value (State.grants_newThread (inState rfl) _)
  | native =>
    refine .knowing (Native.secures_sample _ _) fun native known => grants_value ?_
    exact grants_wrapNative (inState rfl) known.1 (List.Subset.trans known.2 own)
  | typeObject => exact grants_value (grants_wrapType (inState rfl) (plainClass rfl) _)
  | metaType => exact grants_value (State.grants_metaType (inState rfl) _)
  | construct => exact grants_value (State.grants_construct (inState rfl) _ own _)
  | wrap => exact grants_value (grants_wrapObject (inState rfl) _ _)
  | toValue => exact grants_value (HostValue.grants_toValue (inState rfl) own)
  | collectGarbage => exact grants_silent (State.careful_collectGarbage _)
  | index v key =>
    exact grants_value (v.grants_index (List.append_subset.mp own).1 key)
  | setIndex v key value =>
    obtain ⟨both, ownValue⟩ := List.append_subset.mp own
    exact grants_silent (v.careful_setIndex (List.append_subset.mp both).1 key ownValue)
  | call v args =>
    obtain ⟨callee, ownArgs⟩ := List.append_subset.mp own
    exact grants_values (.inStates callee (Value.grants_call
      (fun h member => List.mem_append_left _ (List.mem_map_of_mem member)) ownArgs))
  | length v => exact grants_silent v.careful_length
  | isEmpty v => exact grants_silent v.careful_isEmpty
  | shift v => exact grants_silent (v.careful_shift _ _ _)
  | entries v => exact grants_entries (v.grants_entries own)
  | setEntry e value =>
    obtain ⟨ownEntry, ownValue⟩ := List.append_subset.mp own
    refine .gain (e.grants_set ownEntry ownValue) fun entry => .pure fun _ ready => ?_
    refine ready.lasting.subset ?_
    rw [Gains.handles_entries, handles_singleton]
    exact List.subset_append_left ..
  | fromValue t v => exact grants_silent (t.grants_fromValue own).careful
  | newObject => exact grants_object (.perform (fun _ _ => plainClass rfl) trivial)
  | instantiate cls => exact grants_object (cls.careful_instantiate (plainClass rfl) _ own)
  | setParent =>
    exact .next trivial fun _ => .after (.check _) fun _ => .pure fun _ _ => List.forall_mem_nil _
  | destroy => exact grants_silent (.request fun _ _ => trivial)
  | emit => exact grants_silent (Host.careful_emit _ _ own)
  | connect => exact grants_silent (Host.careful_connect _ _ _ own)
  | connectSlot => exact grants_silent (Host.careful_connectSlot _ _ _ _)
  | connectByName => exact grants_silent (Host.careful_connectByName _)
  | disconnect => exact grants_silent (Host.careful_disconnect _ _ _)
  | disconnectSlot => exact grants_silent (Host.careful_disconnectSlot _ _ _ _)
  | registerType => exact grants_silent (.perform (fun _ _ => plainClass rfl) trivial)
  | hold v => exact .pure fun _ ready => ready.lasting.subset ((Gains.handles_value v).symm ▸ own)
  | letGo name => exact absurd rfl (keeps name)
  | rename | disconnectId | registerGlobal | takeLog => exact grants_silent (.act trivial)

/-- What a call gives is anchored. -/
theorem upholds_program {call : Call} {w : World} (sound : w.Sound) (anchored : w.Anchored)
    (tended : call.Tended w) : call.program.Upholds (fun result w' => w'.Sound ∧ w'.Anchored ∧
      ∀ gains, result = .ok gains → w'.Backing (ScriptBridge.handles gains)) w := by
  have ready : w.Ready call.states (ScriptBridge.handles w.holdings) :=
    ⟨sound, anchored, tended.opened, fun _ kept => anchored.lasts_holdings kept⟩
  by_cases lets : ∃ name, call = .letGo name
  · obtain ⟨name, rfl⟩ := lets
    refine (Upholds.standing (Q := fun result _ => ∀ gains, result = .ok gains →
      ScriptBridge.handles gains = []) ?_ anchored).mono ?_
    · refine fun _ => ⟨trivial, fun _ gains same => ?_⟩
      cases same
      rfl
    · rintro result w' ⟨sound', anchored', nothing⟩
      exact ⟨sound', anchored', fun gains same => .of_nil (nothing gains same)⟩
  · have keeps (name : String) : call ≠ .letGo name := fun same => lets ⟨name, same⟩
    have grants := grants_program keeps tended.held (fun _ => id) tended.plain w ready
    refine (Upholds.standing grants anchored).mono ?_
    rintro result w' ⟨sound', anchored', -, lasting⟩
    exact ⟨sound', anchored', fun gains same => (lasting gains same).backing anchored'⟩

end Call

theorem Op.HoldsOnly.mono {S S' : Handle → Prop} {o : Op β} (holds : o.HoldsOnly S)
    (weaker : ∀ h, S h → S' h) : o.HoldsOnly S' := by
  cases o with
  | store | holdValue | holdEntries => exact fun h member => weaker h (holds h member)
  | connect => exact ⟨holds.1, fun h member => weaker h (holds.2 h member)⟩
  | newNative => exact ⟨holds.plain, fun h member => weaker h (holds.held h member)⟩
  | _ => exact holds

/-- Operations one after another take no anchors from handles. -/
theorem Action.upholds_each {items : List α} {o : α → Op Unit} {w : World}
    (own : ∀ item ∈ items, (o item).HoldsOnly w.Backs) :
    Upholds (items.forM fun item => .perform (o item)) (fun _ w' => ∀ h, w.Backs h → w'.Backs h) w := by
  induction items generalizing w with
  | nil => exact fun _ _ => id
  | cons item rest ih =>
    have kept (h : Handle) (backs : w.Backs h) : ((o item).apply w).2.Backs h := backs.apply (o item)
    refine fun _ => ⟨own item List.mem_cons_self, Upholds.mono (ih fun later member => ?_) ?_⟩
    · exact (own later (List.mem_cons_of_mem _ member)).mono kept
    · exact fun _ _ after h backs => after h (kept h backs)

/-- What is anchored may be kept. -/
theorem Gains.upholds_keep (names : List String) {g : Gains} {w : World}
    (backing : w.Backing (handles g)) : (g.keep names).Upholds (fun _ _ => True) w := by
  have values {entry : String × Value} (member : entry ∈ names.zip g.values) {h : Handle}
      (own : h ∈ handles entry.2) : h ∈ handles g :=
    List.mem_append_left _ (mem_handles_list.mpr ⟨_, (List.of_mem_zip member).2, own⟩)
  have entries {entry : String × List Entry} (member : entry ∈ names.zip g.entries) {h : Handle}
      (own : h ∈ handles entry.2) : h ∈ handles g :=
    List.mem_append_right _ (mem_handles_list.mpr ⟨_, (List.of_mem_zip member).2, own⟩)
  refine Upholds.bind (Action.upholds_each fun entry member h own => backing h (values member own))
    (fun _ w₁ _ first => ?_) fun _ _ _ => trivial
  refine Upholds.bind (Action.upholds_each fun entry member => trivial)
    (fun _ w₂ _ second => ?_) fun _ _ _ => trivial
  refine Upholds.mono (Action.upholds_each fun entry member h own => ?_) fun _ _ _ => trivial
  exact second h (first h (backing h (entries member own)))

theorem Call.Tended.enter {call : Call} {w : World} (tended : call.Tended w) (sc : Scope) :
    call.Tended (sc.enter w) where
  held := by
    rw [(World.OnlyEngines.enter sc w).holdings]
    exact tended.held
  opened := by
    rw [World.next_enter]
    exact tended.opened
  plain := tended.plain

/-- A step of a session puts only anchored handles into the world. -/
theorem Step.upholds_program {step : Step} {w : World} (sound : w.Sound) (anchored : w.Anchored)
    (tended : step.call.Tended w) : step.program.Upholds (fun _ _ => True) w := by
  have called : Upholds (do
      let gains ← step.call.program
      gains.keep step.names) (fun _ _ => True) (Scope.values.enter w) :=
    Upholds.bind (Call.upholds_program (sound.enter _) (anchored.enter _) (tended.enter _))
      (fun gains w' _ after => Gains.upholds_keep _ (after.2.2 gains rfl)) fun _ _ _ => trivial
  have tried : Upholds (.attempt do
      let gains ← step.call.program
      gains.keep step.names) (fun _ _ => True) w := by
    refine fun _ => called.mono fun result w' _ => ?_
    rcases result with (e | _) | u
    · exact ⟨List.forall_mem_nil _, fun _ => trivial⟩
    · exact ⟨List.forall_mem_nil _, fun _ => trivial⟩
    · exact ⟨List.forall_mem_nil _, fun _ => trivial⟩
  refine Upholds.bind (tried.standing anchored) (fun result w' _ after => ?_) fun _ _ _ => trivial
  have ready : w'.Ready [] [] :=
    ⟨after.1, after.2.1, List.forall_mem_nil _, List.forall_mem_nil _⟩
  have reaping : Careful [] [] (.within .values do State.reapAll (← .view (·.objects.next))) :=
    (Secures.within (.lendsNothing (.look fun _ => State.careful_reapAll _) fun _ => rfl)).careful
  exact Upholds.mono (Secures.after reaping (fun _ => .done result) w' ready) fun _ _ _ => trivial

/-- The world between two steps of a session in which the program around the bridge keeps hold of what
it uses. -/
inductive Tended : World → Prop where
  | start : Tended {}
  | step {w w' : World} {moments : List Moment} {result : Except Fault (Except BridgeError Unit)}
      (session : Tended w) (step : Step) (tended : step.call.Tended w)
      (runs : Runs step.program w moments (some result) w') : Tended w'

/-- Any world at which one looks in such a session, in the middle of a step or not. -/
inductive Watched : World → Prop where
  | within {w w' : World} {moments : List Moment}
      {outcome : Option (Except Fault (Except BridgeError Unit))} (session : Tended w) (step : Step)
      (tended : step.call.Tended w) (runs : Runs step.program w moments outcome w') : Watched w'

/-- Whether the program around the bridge may take some steps, one after another. -/
def Step.tended (w : World) : List Step → Bool
  | [] => true
  | step :: rest => decide (step.call.Tended w) && Step.tended (step.program.run w).2 rest

namespace Tended

variable {w : World}

/-- What is carried out of what the program around the bridge may ask for is such a session. -/
theorem play (tended : Tended w) {steps : List Step} (own : Step.tended w steps) :
    Tended (Step.play w steps) := by
  induction steps generalizing w with
  | nil => exact tended
  | cons step rest ih =>
    obtain ⟨first, later⟩ := Bool.and_eq_true_iff.mp own
    obtain ⟨moments, runs⟩ := Action.runs_of_run step.program w
    exact ih (.step tended step (of_decide_eq_true first) runs) later

theorem session (tended : Tended w) : ∃ moments, Session moments w := by
  induction tended with
  | start => exact ⟨[], .start⟩
  | step _ step _ runs ih =>
    obtain ⟨before, session⟩ := ih
    exact ⟨_, .step session step runs⟩

theorem sound (tended : Tended w) : w.Sound := by
  obtain ⟨moments, session⟩ := tended.session
  exact session.passage.arrives.sound World.sound_empty

/-- All that the world holds between two steps is anchored. -/
theorem anchored (tended : Tended w) : w.Anchored := by
  induction tended with
  | start => exact World.anchored_empty
  | step session step own runs ih =>
    exact (runs.anchored session.sound ih (step.safe_program _ session.sound)
      (Step.upholds_program session.sound ih own)).1

end Tended

theorem Watched.sound {w : World} (watched : Watched w) : w.Sound := by
  cases watched with
  | within session step _ runs =>
    exact ((step.safe_program _ session.sound).passage session.sound runs).1.arrives.sound session.sound

/-- So is all that it holds in the middle of a step. -/
theorem Watched.anchored {w : World} (watched : Watched w) : w.Anchored := by
  cases watched with
  | within session step own runs =>
    exact (runs.anchored session.sound session.anchored (step.safe_program _ session.sound)
      (Step.upholds_program session.sound session.anchored own)).1

end ScriptBridge
