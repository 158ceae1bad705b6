import ScriptBridge.Proofs.Opening
import ScriptBridge.Proofs.Requests

/-!
Sessions: whatever the program around the bridge may ask for, one call after another, from the world
in which there is nothing yet.
-/

namespace ScriptBridge

open ScriptBridge.Action (Respects Safe)

/-- What the program around the bridge asks for. -/
inductive Call where
  -- States.
  | openState (config : Config)
  | close (s : StateId)
  | execute (s : StateId) (source : String)
  | executeNamed (s : StateId) (name source : String)
  | run (c : RunConfig) (chunkName source : String)
  | globals (s : StateId)
  | get (s : StateId) (path : String)
  | set (s : StateId) (path : String) (v : Value)
  | newTable (s : StateId)
  | newSequence (s : StateId) (items : List Value)
  | createFunction (s : StateId) (f : HostFunction)
  | registerFunction (s : StateId) (path : String) (f : HostFunction)
  | newThread (s : StateId) (function : Value)
  | native (s : StateId) (typeName : String) (args : List Value)
  | typeObject (s : StateId) (cls : Class) (creator : Bool)
  | metaType (s : StateId) (typeName : String)
  | construct (s : StateId) (typeName : String) (args : List Value) (ownership : Ownership)
  | wrap (s : StateId) (o : ObjectId) (ownership : Ownership)
  | toValue (s : StateId) (v : HostValue)
  | collectGarbage (s : StateId)
  -- Values.
  | index (v key : Value)
  | setIndex (v key value : Value)
  | call (v : Value) (args : List Value)
  | length (v : Value)
  | isEmpty (v : Value)
  | shift (v : Value) (start count : Int64) (fill : Value)
  | entries (v : Value)
  | setEntry (e : Entry) (value : Value)
  | fromValue (t : HostType) (v : Value)
  -- Host objects.
  | newObject (cls : Class) (name : String)
  | instantiate (cls : Class) (creator : Bool) (args : List Value)
  | rename (o : ObjectId) (name : String)
  | setParent (o : ObjectId) (parent : Option ObjectId)
  | destroy (o : ObjectId)
  | emit (o : ObjectId) (signal : String) (args : List HostValue)
  | connect (s : StateId) (o : ObjectId) (signal : String) (callable : Value)
  | connectSlot (o : ObjectId) (signal : String) (target : ObjectId) (slot : String)
  | connectByName (target : ObjectId)
  | disconnect (o : ObjectId) (signal : String) (callable : Option Value)
  | disconnectSlot (o : ObjectId) (signal : String) (target : ObjectId) (slot : String)
  | disconnectId (o : ObjectId) (id : Nat)
  -- Registries, the log, and what is kept.
  | registerType (cls : Class) (creator : Bool)
  | registerGlobal (path : String) (f : HostFunction)
  | takeLog
  | hold (v : Value)
  | letGo (name : String)

/-- What a call gives to the program around the bridge. -/
structure Gains where
  values : List Value := []
  objects : List ObjectId := []
  entries : List (List Entry) := []

instance : Holding Gains := ⟨fun g => handles g.values ++ handles g.entries⟩

namespace Gains

def value (v : Value) : Gains := { values := [v] }

def object (o : ObjectId) : Gains := { objects := [o] }

/-- Keeps what a call has given under names. -/
def keep (names : List String) (g : Gains) : Action Unit := do
  (names.zip g.values).forM fun (name, v) => .perform (.holdValue name v)
  (names.zip g.objects).forM fun (name, o) => .perform (.holdObject name o)
  (names.zip g.entries).forM fun (name, entries) => .perform (.holdEntries name entries)

end Gains

namespace Call

/-- A program of which the result does not matter. -/
private def silent (a : Action α) : Action Gains := do
  discard a
  pure {}

/-- What is done for a call. -/
def program : Call → Action Gains
  | .openState config => silent (State.openState config)
  | .close s => silent (State.close s)
  | .execute s source => do pure { values := ← State.execute s source }
  | .executeNamed s name source => do pure { values := ← State.executeNamed s name source }
  | .run c chunkName source => do pure { values := (← c.runNamed chunkName source).values }
  | .globals s => Gains.value <$> State.globals s
  | .get s path => Gains.value <$> State.get s path
  | .set s path v => silent (State.set s path v)
  | .newTable s => Gains.value <$> TableOps.newTable s
  | .newSequence s items => Gains.value <$> State.newSequence s items
  | .createFunction s f => Gains.value <$> State.createFunction s f
  | .registerFunction s path f => silent (State.registerFunction s path f)
  | .newThread s function => Gains.value <$> State.newThread s function
  | .native s typeName args => do
    let native ← .ofExcept (Native.sample typeName args)
    Gains.value <$> wrapNative s native
  | .typeObject s cls creator => Gains.value <$> wrapNative s (.typeObject cls creator)
  | .metaType s typeName => Gains.value <$> State.metaType s typeName
  | .construct s typeName args ownership =>
    Gains.value <$> State.construct s typeName args ownership
  | .wrap s o ownership => Gains.value <$> wrapObject s o ownership
  | .toValue s v => Gains.value <$> v.toValue s
  | .collectGarbage s => silent (State.collectGarbage s)
  | .index v key => Gains.value <$> v.index key
  | .setIndex v key value => silent (v.setIndex key value)
  | .call v args => do pure { values := ← v.call args }
  | .length v => silent v.length
  | .isEmpty v => silent v.isEmpty
  | .shift v start count fill => silent (v.shift start count fill)
  | .entries v => do pure { entries := [← v.entries] }
  | .setEntry e value => do pure { entries := [[← e.set value]] }
  | .fromValue t v => silent (t.fromValue v)
  | .newObject cls name => Gains.object <$> .perform (.newObject cls name)
  | .instantiate cls creator args => Gains.object <$> cls.instantiate creator args
  | .rename o name => silent (.perform (.rename o name))
  | .setParent o parent => do
    .ofExcept (← .perform (.setParent o parent))
    pure {}
  | .destroy o => silent (.ask (.destroy o))
  | .emit o signal args => silent (Host.emit o signal args)
  | .connect s o signal callable => silent (Host.connect s o signal callable)
  | .connectSlot o signal target slot => silent (Host.connectSlot o signal target slot)
  | .connectByName target => silent (Host.connectByName target)
  | .disconnect o signal callable => silent (Host.disconnect o signal callable)
  | .disconnectSlot o signal target slot => silent (Host.disconnectSlot o signal target slot)
  | .disconnectId o id => silent (.perform (.disconnectId o id))
  | .registerType cls creator => silent (.perform (.registerType cls creator))
  | .registerGlobal path f => silent (.perform (.registerFunction path f))
  | .takeLog => silent (.perform .takeLog)
  | .hold v => pure (.value v)
  | .letGo name => silent (.perform (.letGo name))

private theorem safe_silent {a : Action α} (safe : a.Safe) : (silent a).Safe :=
  .bind (.discard safe) fun _ _ => .pure trivial

private theorem safe_value {a : Action Value} (safe : a.Safe) : (Gains.value <$> a).Safe :=
  .map safe fun _ _ => trivial

/-- Whatever the program around the bridge asks for keeps engines apart. -/
theorem safe_program (call : Call) : call.program.Safe := by
  cases call with
  | openState config => exact safe_silent (State.safe_openState config)
  | close s => exact safe_silent (State.safe_close s)
  | execute s source => exact .bind (State.safe_execute s source) fun _ _ => .pure trivial
  | executeNamed s name source =>
    exact .bind (State.safe_executeNamed s name source) fun _ _ => .pure trivial
  | run c chunkName source => exact .bind (c.safe_runNamed _ _) fun _ _ => .pure trivial
  | globals s => exact safe_value (State.safe_globals s)
  | get s path => exact safe_value (State.safe_get s path)
  | set s path v => exact safe_silent (State.safe_set s path v)
  | newTable s => exact safe_value (TableOps.respects_newTable s).safe
  | newSequence s items => exact safe_value (State.safe_newSequence s items)
  | createFunction s f => exact safe_value (State.safe_createFunction s f)
  | registerFunction s path f => exact safe_silent (State.safe_registerFunction s path f)
  | newThread s function => exact safe_value (State.safe_newThread s function)
  | native s typeName args =>
    refine .bind (.ofExcept fun _ made => Native.plain_of_sample made) fun native plain => ?_
    exact safe_value (safe_wrapNative s plain)
  | typeObject s cls creator => exact safe_value (safe_wrapNative s (by simp [Native.IsWrapper]))
  | metaType s typeName => exact safe_value (State.safe_metaType s typeName)
  | construct s typeName args ownership =>
    exact safe_value (State.safe_construct s typeName args ownership)
  | wrap s o ownership => exact safe_value (safe_wrapObject s o ownership)
  | toValue s v => exact safe_value (HostValue.safe_toValue s v)
  | collectGarbage s => exact safe_silent (State.safe_collectGarbage s)
  | index v key => exact safe_value (v.safe_index key)
  | setIndex v key value => exact safe_silent (v.safe_setIndex key value)
  | call v args => exact .bind (v.safe_call args) fun _ _ => .pure trivial
  | length v => exact safe_silent v.safe_length
  | isEmpty v => exact safe_silent v.safe_isEmpty
  | shift v start count fill => exact safe_silent (v.safe_shift start count fill)
  | entries v => exact .bind v.safe_entries fun _ _ => .pure trivial
  | setEntry e value => exact .bind (e.safe_set value) fun _ _ => .pure trivial
  | fromValue t v => exact safe_silent (Action.Spares.safe fun w₀ => t.spares_fromValue w₀ v)
  | instantiate cls creator args =>
    exact .map (cls.safe_instantiate creator args) fun _ _ => trivial
  | setParent o parent =>
    refine .bind (P := fun _ => True) (.act fun _ _ => trivial) fun _ _ => ?_
    exact .bind (P := fun _ => True) (.ofExcept fun _ _ => trivial) fun _ _ => .pure trivial
  | destroy o =>
    have asked : Safe (.ask (.destroy o)) := .ask trivial fun _ _ _ _ => trivial
    exact safe_silent asked
  | emit o signal args => exact safe_silent (Host.safe_emit o signal args)
  | connect s o signal callable => exact safe_silent (Host.safe_connect s o signal callable)
  | connectSlot o signal target slot =>
    exact safe_silent (Host.safe_connectSlot o signal target slot)
  | connectByName target => exact safe_silent (Host.safe_connectByName target)
  | disconnect o signal callable => exact safe_silent (Host.safe_disconnect o signal callable)
  | disconnectSlot o signal target slot =>
    exact safe_silent (Host.safe_disconnectSlot o signal target slot)
  | newObject cls name =>
    exact .map (P := fun _ => True) (.act fun _ _ => trivial) fun _ _ => trivial
  | hold v => exact .pure trivial
  | rename | disconnectId | registerType | registerGlobal | takeLog | letGo =>
    exact safe_silent (.act fun _ _ => trivial)

end Call

/-- A call, and the names under which the program around the bridge keeps what it gives. -/
structure Step where
  call : Call
  names : List String := []

namespace Step

/-- What is done in a step; afterwards host objects that only the step held are gone. -/
def program (step : Step) : Action (Except BridgeError Unit) := do
  let result ← .attempt do
    let gains ← step.call.program
    gains.keep step.names
  .within .values do State.reapAll (← .view (·.objects.next))
  pure result

theorem safe_keep (names : List String) (g : Gains) : (g.keep names).Safe := by
  refine .bind (P := fun _ => True) (.forM fun _ _ => .act fun _ _ => trivial) fun _ _ => ?_
  refine .bind (P := fun _ => True) (.forM fun _ _ => .act fun _ _ => trivial) fun _ _ => ?_
  exact .forM fun _ _ => .act fun _ _ => trivial

theorem safe_program (step : Step) : step.program.Safe := by
  have calling : Safe (do
      let gains ← step.call.program
      gains.keep step.names) :=
    .bind step.call.safe_program fun gains _ => safe_keep step.names gains
  refine .bind (Respects.attempt calling) fun result _ => ?_
  refine .bind (P := fun _ => True) (.within (.of_view fun w _ => State.safe_reapAll _)) ?_
  exact fun _ _ => .pure trivial

end Step

/-- The moments of a session up to the end of a step, and the world there. -/
inductive Session : List Moment → World → Prop where
  | start : Session [] {}
  | step {before moments : List Moment} {w w' : World}
      {result : Except Fault (Except BridgeError Unit)}
      (session : Session before w) (step : Step)
      (runs : Runs step.program w moments (some result) w') : Session (before ++ moments) w'

/-- The moments of a session up to some point, in the middle of a step or not, and the world
there. -/
inductive Reaches : List Moment → World → Prop where
  | within {before moments : List Moment} {w w' : World}
      {outcome : Option (Except Fault (Except BridgeError Unit))} (session : Session before w)
      (step : Step) (runs : Runs step.program w moments outcome w') : Reaches (before ++ moments) w'

/-- The world after some steps, each of them carried out to its end. -/
def Step.play (w : World) (steps : List Step) : World :=
  steps.foldl (fun w step => (step.program.run w).2) w

/-- The least a state can be opened with: neither libraries nor a host table. -/
def Config.bare : Config := { engine := { libraries := [] }, hostLib := { enabled := false } }

/-- What is carried out is a session. -/
theorem Session.play {before : List Moment} {w : World} (session : Session before w)
    (steps : List Step) : ∃ moments, Session moments (Step.play w steps) := by
  induction steps generalizing before w with
  | nil => exact ⟨before, session⟩
  | cons step rest ih =>
    obtain ⟨moments, runs⟩ := Action.runs_of_run step.program w
    exact ih (.step session step runs)

theorem Session.trail {moments : List Moment} {w : World} (session : Session moments w) :
    Trail {} moments w := by
  induction session with
  | start => exact .here {}
  | step session step runs ih =>
    have sound := ih.sound World.sound_empty
    exact ih.append ((step.safe_program _ sound).trail sound runs).1

theorem Session.passage {moments : List Moment} {w : World} (session : Session moments w) :
    Passage {} moments w :=
  session.trail.passage

namespace Reaches

variable {moments : List Moment} {w : World}

/-- One may look between two steps. -/
theorem of_session (session : Session moments w) : Reaches moments w := by
  have looking := Reaches.within session ⟨.takeLog, []⟩ (.stop _ w)
  rwa [List.append_nil] at looking

/-- All of a session is made of changes that programs may make. -/
theorem trail (reaches : Reaches moments w) : Trail {} moments w := by
  cases reaches with
  | within session step runs =>
    have trail := session.trail
    have sound := trail.sound World.sound_empty
    exact trail.append ((step.safe_program _ sound).trail sound runs).1

/-- All of a session is made of permitted changes, and only what is permitted is ever about to
happen. -/
theorem passage (reaches : Reaches moments w) : Passage {} moments w :=
  reaches.trail.passage

/-- What holds in the beginning and is kept by every permitted change holds wherever one looks. -/
theorem holds {P : World → Prop} (reaches : Reaches moments w) (initially : P {})
    (step : ∀ w w', w.Change w' → P w → P w') : P w :=
  reaches.passage.arrives.keeps step initially

theorem sound (reaches : Reaches moments w) : w.Sound :=
  reaches.passage.arrives.sound World.sound_empty

end Reaches

end ScriptBridge
