import ScriptBridge.Proofs.Failing
import ScriptBridge.Proofs.Session

/-!
States stay apart: nothing of one state can be reached from inside another one, and a handle that is
offered to a state other than its own is turned away.
-/

namespace ScriptBridge

open ScriptBridge.Action (Failing Meets)
open Script (Datum Machine Results runHost runMember)

/-- What scripts of a state can get at, going on from what its engine keeps. -/
inductive World.Inside (w : World) (s : StateId) : Ref → Prop where
  | root {e : Engine} {r : Ref} (engine : w.engine? s = some e) (root : r ∈ e.roots) : Inside w s r
  | wrapper {e : Engine} {o : ObjectId} {r : Ref} (engine : w.engine? s = some e)
      (remembered : (o, r) ∈ e.wrappers) : Inside w s r
  | member {r r' : Ref} {cell : Script.Cell} (inside : Inside w s r) (found : w.cell? r = some cell)
      (member : r' ∈ cell.refs) : Inside w s r'

theorem World.Isolated.inside {w : World} (isolated : w.Isolated) {s : StateId} {r : Ref}
    (inside : w.Inside s r) : r.owner = s := by
  induction inside with
  | root engine root => exact (isolated _ _ engine).roots _ root
  | wrapper engine remembered => exact (isolated _ _ engine).wrappers _ remembered
  | member inside found member ih => exact (isolated.cell_owned found _ member).trans ih

/-- Why a state that is not its own turns a handle away. -/
def Handle.rejection (w : World) (h : Handle) : BridgeError :=
  if w.isOpen h.state then .typeMismatch s!"{h.kind.name} value belongs to another state"
  else .stateClosed

/-- Calls of a handle hand their arguments to the engine of its state. -/
def Handle.TakesData (w : World) (h : Handle) : Prop :=
  match h.kind with
  | .function => True
  | .thread => w.threadState h.target = .fresh ∨ w.threadState h.target = .yielded
  | .table => (Value.rawMeta w h.target "__call").isNil = false
  | .userdata => w.nativeOf? (.handle h) = none

variable {w : World}

namespace World

@[simp] theorem isOpen_write (w : World) (r : Ref) (cell : Script.Cell) (s : StateId) :
    (w.write r cell).isOpen s = w.isOpen s :=
  isOpen_modifyEngine w r.owner s _

/-- An operation that begins finds coroutines as they were. -/
theorem threadState_enter (s : StateId) (w : World) (r : Ref) :
    ((Scope.operation s).enter w).threadState r = w.threadState r := by
  have alike := Alike.enter (.operation s) w
  have running : (((Scope.operation s).enter w).engine? r.owner).map (·.running) =
      (w.engine? r.owner).map (·.running) := by
    simp only [Scope.enter, engine?_modifyEngine]
    split
    · rw [Option.map_map]
      rfl
    · rfl
  simp only [threadState, running, thread?, alike.cell?]

end World

namespace Handle

variable {h : Handle} {s : StateId}

/-- Which error it is depends only on whether the handle's state is open. -/
theorem rejection_congr {w' : World} (same : w'.isOpen h.state = w.isOpen h.state) :
    h.rejection w' = h.rejection w := by
  simp only [rejection, same]

theorem rejection_kind (w : World) (h : Handle) :
    (h.rejection w).kind = if w.isOpen h.state then .typeMismatch else .stateClosed := by
  unfold rejection
  split <;> rfl

theorem datum_foreign (foreign : h.state ≠ s) {w' : World}
    (same : w'.isOpen h.state = w.isOpen h.state) :
    (Value.handle h).datum w' s = .error (h.rejection w) := by
  rw [← rejection_congr same]
  simp only [Value.datum, rejection]
  cases w'.isOpen h.state with
  | false => rfl
  | true => simp [foreign]

end Handle

namespace Value

variable {s : StateId} {v : Value}

theorem datum_congr {w' : World} (same : ∀ t, w'.isOpen t = w.isOpen t) :
    v.datum w' s = v.datum w s := by
  cases v with
  | handle h => simp only [datum, same]
  | _ => rfl

/-- In an open state only a foreign handle has no datum. -/
theorem datum_cases (isOpen : w.isOpen s) (v : Value) :
    (∃ d, v.datum w s = .ok d) ∨ ∃ h, v = .handle h ∧ h.state ≠ s := by
  cases v with
  | handle h =>
    by_cases own : h.state = s
    · refine .inl ⟨h.datum, ?_⟩
      simp [datum, own, isOpen]
    · exact .inr ⟨h, rfl, own⟩
  | _ => exact .inl ⟨_, rfl⟩

theorem meets_toDatum {d : Datum} (made : v.datum w s = .ok d) {f : Datum → Action α}
    {Q : Except Fault α → World → Prop} (rest : (f d).Meets Q w) :
    (v.toDatum s >>= f).Meets Q w := by
  unfold toDatum
  rw [bind_assoc, Meets.view_iff, made]
  exact rest

theorem toDatum_failing {e : BridgeError} (refused : v.datum w s = .error e) :
    (v.toDatum s).Meets (Failing e) w := by
  unfold toDatum
  rw [Meets.view_iff, refused]
  exact rfl

/-- Values among which is a foreign handle are turned away for the first such one. -/
theorem toData_failing (isOpen : w.isOpen s) {values : List Value} {h : Handle}
    (member : .handle h ∈ values) (foreign : h.state ≠ s) :
    ∃ h', .handle h' ∈ values ∧ h'.state ≠ s ∧ ∀ w', (∀ t, w'.isOpen t = w.isOpen t) →
      (toData s values).Meets (Failing (h'.rejection w)) w' := by
  unfold toData
  induction values with
  | nil => simp at member
  | cons v rest ih =>
    rw [List.mapM_cons]
    rcases datum_cases isOpen v with ⟨d, made⟩ | ⟨h', rfl, foreign'⟩
    · have later : .handle h ∈ rest := by
        rcases List.mem_cons.mp member with rfl | later
        · have refused : (Value.handle h).datum w s = .error (h.rejection w) :=
            Handle.datum_foreign foreign rfl
          rw [refused] at made
          cases made
        · exact later
      obtain ⟨h', member', foreign', failing⟩ := ih later
      refine ⟨h', by simp [member'], foreign', fun w' same => ?_⟩
      exact meets_toDatum ((datum_congr same).trans made) (Meets.bind_failing (failing w' same))
    · refine ⟨h', by simp, foreign', fun w' same => Meets.bind_failing (toDatum_failing ?_)⟩
      exact Handle.datum_foreign foreign' (same _)

/-- An operation on a userdata without a native object leaves it to the engine. -/
theorem meets_noNative (none : w.nativeOf? v = none) {f : Option (NativeId × Native) → Action α}
    {Q : Except Fault α → World → Prop} (rest : (f .none).Meets Q w) :
    (v.native? >>= f).Meets Q w := by
  refine Meets.view_iff.mpr ?_
  have missing :
      ((w.nativeId? v).bind fun n => (w.native? n).map fun native => (n, native)) = .none := by
    cases number : w.nativeId? v with
    | none => rfl
    | some n =>
      have absent : w.native? n = .none := by simpa [World.nativeOf?, number] using none
      simp [absent]
  rw [missing]
  exact rest

/-- To replace the content of a table closes no state. -/
theorem meets_setContent (sound : w.Sound) {r : Ref} {content : Script.Table}
    (own : Owned r.owner content.refs) : (TableOps.setContent r content).Meets
      (fun result w' => result = .ok () ∧ ∀ t, w'.isOpen t = w.isOpen t) w := by
  refine Meets.view_iff.mpr ⟨Owned.append_iff.mpr ⟨own, ?_⟩, rfl, World.isOpen_write w r _⟩
  intro m member
  exact sound.isolated.metatableAt_owned (Option.mem_toList.mp member)

section Routes

variable {h k : Handle} (isOpen : w.isOpen h.state)
include isOpen

theorem index_foreign
    (engine : h.kind = .table ∨ h.kind = .userdata ∧ w.nativeOf? (.handle h) = none)
    (foreign : k.state ≠ h.state) :
    ((Value.handle h).index (.handle k)).Meets (Failing (k.rejection w)) w := by
  have entered := World.Alike.enter (.operation h.state) w
  have refused := Handle.datum_foreign foreign (entered.isOpen k.state)
  rcases engine with kind | ⟨kind, none⟩
  · simp only [index, kind]
    exact (checkOpen_iff isOpen).mpr
      (Meets.within_failing (Meets.bind_failing (toDatum_failing refused)))
  · simp only [index, kind]
    refine (checkOpen_iff isOpen).mpr (Meets.within_failing ?_)
    exact meets_noNative ((entered.nativeOf? _).trans none)
      (Meets.bind_failing (toDatum_failing refused))

theorem setIndex_foreign
    (engine : h.kind = .table ∨ h.kind = .userdata ∧ w.nativeOf? (.handle h) = none)
    {key value : Value} (foreign : k.state ≠ h.state)
    (offered : key = .handle k ∨ (∃ d, key.datum w h.state = .ok d) ∧ value = .handle k) :
    ((Value.handle h).setIndex key value).Meets (Failing (k.rejection w)) w := by
  have entered := World.Alike.enter (.operation h.state) w
  have refused := Handle.datum_foreign foreign (entered.isOpen k.state)
  have converting {f : Datum → Datum → Action Unit} : (key.toDatum h.state >>= fun key =>
      value.toDatum h.state >>= f key).Meets (Failing (k.rejection w))
        ((Scope.operation h.state).enter w) := by
    rcases offered with rfl | ⟨⟨d, made⟩, rfl⟩
    · exact Meets.bind_failing (toDatum_failing refused)
    · exact meets_toDatum ((datum_congr entered.isOpen).trans made)
        (Meets.bind_failing (toDatum_failing refused))
  rcases engine with kind | ⟨kind, none⟩
  · simp only [setIndex, kind]
    exact (checkOpen_iff isOpen).mpr (Meets.within_failing converting)
  · simp only [setIndex, kind]
    refine (checkOpen_iff isOpen).mpr (Meets.within_failing ?_)
    exact meets_noNative ((entered.nativeOf? _).trans none) converting

theorem call_foreign (sound : w.Sound) (takes : h.TakesData w) {args : List Value}
    (member : .handle k ∈ args) (foreign : k.state ≠ h.state) :
    ∃ k', .handle k' ∈ args ∧ k'.state ≠ h.state ∧
      ((Value.handle h).call args).Meets (Failing (k'.rejection w)) w := by
  obtain ⟨k', member', foreign', failing⟩ := toData_failing isOpen member foreign
  refine ⟨k', member', foreign', ?_⟩
  have entered := World.Alike.enter (.operation h.state) w
  have converting := failing _ entered.isOpen
  unfold Handle.TakesData at takes
  split at takes
  · rename_i kind
    simp only [call, kind]
    exact (checkOpen_iff isOpen).mpr (Meets.within_failing (Meets.bind_failing converting))
  · rename_i kind
    simp only [call, kind]
    refine (checkOpen_iff isOpen).mpr (Meets.within_failing (Meets.view_iff.mpr ?_))
    rw [World.threadState_enter]
    have resuming : (markResumed h.target >>= fun _ => toData h.state args >>= fun args =>
        runTask h.state (.resume h.target args) >>= ofData).Meets (Failing (k'.rejection w))
          ((Scope.operation h.state).enter w) := by
      have suspended := takes
      rw [← World.threadState_enter h.state] at suspended
      refine Meets.bind_iff.mpr ((meets_markResumed (sound.enter _) suspended).mono ?_)
      rintro _ w' ⟨rfl, -, same⟩
      exact Meets.bind_failing (failing w' fun t => (same t).trans (entered.isOpen t))
    rcases takes with state | state <;> rw [state] <;> exact resuming
  · rename_i kind
    simp only [call, kind]
    refine (checkOpen_iff isOpen).mpr (Meets.within_failing (Meets.view_iff.mpr ?_))
    have same : rawMeta ((Scope.operation h.state).enter w) h.target "__call" =
        rawMeta w h.target "__call" := by
      simp only [rawMeta, World.metatableAt, entered.cell?, entered.tableAt]
    rw [same, takes]
    exact Meets.bind_failing converting
  · rename_i kind
    simp only [call, kind]
    refine (checkOpen_iff isOpen).mpr (Meets.within_failing ?_)
    exact meets_noNative ((entered.nativeOf? _).trans takes) (Meets.bind_failing converting)

theorem shift_foreign (sound : w.Sound) (kind : h.kind = .table) {start count : Int64}
    (from_ : 1 ≤ start.toInt) (upTo : start.toInt ≤ (w.tableAt h.target).length + 1)
    (positive : 0 < count.toInt)
    (fits : (w.tableAt h.target).length + count.toInt ≤ TableOps.maxInteger ∧
      start.toInt + count.toInt ≤ TableOps.maxInteger)
    (foreign : k.state ≠ h.state) :
    ((Value.handle h).shift start count (.handle k)).Meets (Failing (k.rejection w)) w := by
  have entered := World.Alike.enter (.operation h.target.owner) w
  simp only [shift, ofKind?, kind, if_true]
  refine (checkOpen_iff isOpen).mpr (Meets.within_failing (Meets.view_iff.mpr ?_))
  have owned := sound.isolated.tableAt_owned h.target
  rw [entered.tableAt]
  dsimp only
  rw [if_neg (by omega), if_neg (by omega), if_pos positive, if_neg (by omega)]
  have moved := TableOps.shiftUp_owned owned start.toInt (w.tableAt h.target).length count.toInt
  refine Meets.bind_iff.mpr ((meets_setContent (sound.enter _) moved).mono ?_)
  rintro _ w' ⟨rfl, same⟩
  refine Meets.bind_failing (toDatum_failing ?_)
  exact Handle.datum_foreign foreign ((same k.state).trans (entered.isOpen k.state))

end Routes

end Value

namespace State

variable {s : StateId}

theorem meets_globals (sound : w.Sound) (isOpen : w.isOpen s) : (globals s).Meets
    (fun result w' => ∃ r a, r.owner = s ∧ result = .ok (.handle ⟨.table, r, a⟩) ∧ w.Alike w')
      w := by
  have entered := World.Alike.enter (.operation s) w
  have opened : ((Scope.operation s).enter w).isOpen s := by rwa [entered.isOpen]
  refine Meets.view_iff.mpr ?_
  cases engine : ((Scope.operation s).enter w).engine? s with
  | none => simp [World.isOpen, engine] at opened
  | some e =>
    have own := (sound.enter (.operation s)).isolated.globals engine
    refine ⟨trivial, e.globals, _, own, rfl, ?_⟩
    exact entered.trans ((World.Alike.anchor _ e.globals).trans (World.Alike.exit _ _ _))

/-- A global that is set by its name takes no foreign handle. -/
theorem set_foreign (sound : w.Sound) (isOpen : w.isOpen s) {name : String}
    (plain : State.segments name = .ok [name]) {k : Handle} (foreign : k.state ≠ s) :
    (State.set s name (.handle k)).Meets (Failing (k.rejection w)) w := by
  have entered := World.Alike.enter (.operation s) w
  refine Meets.within_failing (Meets.ofExcept_iff.mpr ⟨?_, ?_⟩)
  · rintro _ same
    obtain rfl : [name] = _ := Except.ok.inj (plain.symm.trans same)
    have opened : ((Scope.operation s).enter w).isOpen s := by rwa [entered.isOpen]
    refine Meets.bind_iff.mpr ((meets_globals (sound.enter _) opened).mono ?_)
    rintro _ w' ⟨r, a, rfl, rfl, alike⟩
    have now := entered.trans alike
    have storing : ((Value.handle ⟨.table, r, a⟩).setIndex (.text name) (.handle k)).Meets
        (Failing (k.rejection w')) w' :=
      Value.setIndex_foreign (by rwa [now.isOpen]) (.inl rfl) foreign (.inr ⟨⟨_, rfl⟩, rfl⟩)
    rw [Handle.rejection_congr (now.isOpen k.state)] at storing
    exact storing
  · intro e none
    rw [plain] at none
    cases none

end State

namespace Script

variable {s : StateId} {d : Datum} {n : NativeId} {o : ObjectId}

/-- A script that reads a property in which a foreign handle is stored fails. -/
theorem runMember_foreign {owning : Bool} {ownership : Ownership}
    (found : nativeOfDatum w d = some (n, .wrapper o owning ownership))
    (alive : w.isDestroyed o = false) {name : Bytes} {p : Property} {stored : String}
    (property : (w.classOf o).property? name.toText = some p) (getter : p.getter = .get stored)
    {k : Handle} (holds : Host.stored w o stored = some (.variant (.handle k)))
    (foreign : k.state ≠ s) :
    (runMember s .index [d, .text name]).Meets (Failing (k.rejection w)) w := by
  unfold runMember
  refine Meets.view_iff.mpr ?_
  simp only [List.headD_cons, found]
  change (Native.readMember s o (.text name.toText) >>= oneDatum s).Meets _ w
  have getting : (p.read o).Meets
      (fun result w' => result = .ok (.variant (.handle k)) ∧ w' = w) w := by
    simp only [Property.read, getter, Behaviour.run]
    refine ⟨alive, trivial, ?_⟩
    exact ⟨congrArg (fun found => Except.ok (found.getD .void)) holds, rfl⟩
  have reading : (Native.readMember s o (.text name.toText)).Meets
      (fun result w' => result = .ok (.handle k) ∧ w' = w) w := by
    refine Meets.view_iff.mpr (Meets.view_iff.mpr ?_)
    rw [World.ensureAlive_iff.mpr alive]
    refine Meets.ofExcept_iff.mpr ⟨fun _ _ => ?_, fun _ none => by cases none⟩
    rw [property]
    refine Meets.bind_iff.mpr (getting.mono ?_)
    rintro _ w' ⟨rfl, rfl⟩
    exact ⟨rfl, rfl⟩
  refine Meets.bind_iff.mpr (reading.mono ?_)
  rintro _ w' ⟨rfl, rfl⟩
  exact Meets.bind_failing (Value.toDatum_failing (Handle.datum_foreign foreign rfl))

end Script

/-- Nothing of another state is inside a state, and nothing gets there: neither by a step of a
script, nor with what native code gives to one. -/
structure World.Contains (w : World) (s : StateId) : Prop where
  inside : ∀ r, w.Inside s r → r.owner = s
  steps : ∀ m during next w', Machine.Within s m → Runs m.step w during (some (.ok next)) w' →
    Machine.Leads s next
  functions : ∀ f args during result w',
    Runs (runHost s f args) w during (some (.ok result)) w' → Results s result
  members : ∀ event args during result w',
    Runs (runMember s event args) w during (some (.ok result)) w' → Results s result

/-- A state turns a handle away wherever it is offered: alone or among others; as a key, a value or
an argument; as what fills a sequence; as a global; and as what a property has stored. A longer
path, a delivery and a native function end with one of these, in the world that they have come
to. -/
structure World.TurnsAway (w : World) (s : StateId) (k : Handle) : Prop where
  alone : ((Value.handle k).toDatum s).Fails (k.rejection w) w
  among : ∀ values, w.isOpen s → .handle k ∈ values → ∃ k', .handle k' ∈ values ∧ k'.state ≠ s ∧
    (Value.toData s values).Fails (k'.rejection w) w
  key : ∀ h value, w.isOpen s → h.state = s →
    h.kind = .table ∨ h.kind = .userdata ∧ w.nativeOf? (.handle h) = none →
    ((Value.handle h).index (.handle k)).Fails (k.rejection w) w ∧
      ((Value.handle h).setIndex (.handle k) value).Fails (k.rejection w) w
  value : ∀ h key d, w.isOpen s → h.state = s →
    h.kind = .table ∨ h.kind = .userdata ∧ w.nativeOf? (.handle h) = none →
    key.datum w s = .ok d → ((Value.handle h).setIndex key (.handle k)).Fails (k.rejection w) w
  argument : ∀ h args, w.isOpen s → h.state = s → h.TakesData w → .handle k ∈ args →
    ∃ k', .handle k' ∈ args ∧ k'.state ≠ s ∧ ((Value.handle h).call args).Fails (k'.rejection w) w
  fill : ∀ h (start count : Int64), w.isOpen s → h.state = s → h.kind = .table →
    1 ≤ start.toInt → start.toInt ≤ (w.tableAt h.target).length + 1 → 0 < count.toInt →
    (w.tableAt h.target).length + count.toInt ≤ TableOps.maxInteger →
    start.toInt + count.toInt ≤ TableOps.maxInteger →
    ((Value.handle h).shift start count (.handle k)).Fails (k.rejection w) w
  global : ∀ name, w.isOpen s → State.segments name = .ok [name] →
    (State.set s name (.handle k)).Fails (k.rejection w) w
  property : ∀ d n o owning ownership name p stored,
    Script.nativeOfDatum w d = some (n, .wrapper o owning ownership) → w.isDestroyed o = false →
    (w.classOf o).property? (Script.Bytes.toText name) = some p → p.getter = .get stored →
    Host.stored w o stored = some (.variant (.handle k)) →
    (runMember s .index [d, .text name]).Fails (k.rejection w) w

theorem World.Sound.contains (sound : w.Sound) (s : StateId) : w.Contains s where
  inside := fun _ inside => sound.isolated.inside inside
  steps := by
    intro m during next w' within runs
    have leads := (m.respects_step within w sound).passage sound runs
    exact (leads.2 _ rfl).2 next rfl
  functions := by
    intro f args during result w' runs
    have results := (Script.respects_runHost s f args w sound).passage sound runs
    exact (results.2 _ rfl).2 result rfl
  members := by
    intro event args during result w' runs
    have results := (Script.respects_runMember s event args w sound).passage sound runs
    exact (results.2 _ rfl).2 result rfl

theorem World.Sound.turnsAway (sound : w.Sound) {s : StateId} {k : Handle} (foreign : k.state ≠ s) :
    w.TurnsAway s k where
  alone := (Value.toDatum_failing (Handle.datum_foreign foreign rfl)).fails sound
  among := by
    intro values isOpen member
    obtain ⟨k', member', foreign', failing⟩ := Value.toData_failing isOpen member foreign
    exact ⟨k', member', foreign', (failing w fun _ => rfl).fails sound⟩
  key := by
    rintro h value isOpen rfl engine
    exact ⟨(Value.index_foreign isOpen engine foreign).fails sound,
      (Value.setIndex_foreign isOpen engine foreign (.inl rfl)).fails sound⟩
  value := by
    rintro h key d isOpen rfl engine made
    exact (Value.setIndex_foreign isOpen engine foreign (.inr ⟨⟨d, made⟩, rfl⟩)).fails sound
  argument := by
    rintro h args isOpen rfl takes member
    obtain ⟨k', member', foreign', failing⟩ := Value.call_foreign isOpen sound takes member foreign
    exact ⟨k', member', foreign', failing.fails sound⟩
  fill := by
    rintro h start count isOpen rfl kind from_ upTo positive fits fits'
    have failing := Value.shift_foreign isOpen sound kind from_ upTo positive ⟨fits, fits'⟩ foreign
    exact failing.fails sound
  global := fun name isOpen plain => (State.set_foreign sound isOpen plain foreign).fails sound
  property := by
    intro d n o owning ownership name p stored found alive property getter holds
    exact (Script.runMember_foreign found alive property getter holds foreign).fails sound

/-- Why no coroutine is made of a function of another state, be that state open or not. -/
def State.foreignFunction : BridgeError :=
  ⟨.typeMismatch, "function belongs to another state", some "coroutine.create"⟩

/-- Wherever one looks, states contain nothing of one another, and engines are asked only for what
is their own; a foreign handle is turned away everywhere, for the reason that holds everywhere. Only
where coroutines are made is the reason another one, and that is of the same kind only while the
handle's state is open. -/
theorem Reaches.states_apart {moments : List Moment} (reaches : Reaches moments w) :
    (∀ s, w.Contains s) ∧
    (∀ before s task v after, moments = before ++ .request (.script s task) v :: after →
      Owned s task.refs) ∧
    (∀ s k, Handle.state k ≠ s → w.TurnsAway s k) ∧
    ∀ s k, Handle.state k ≠ s → k.kind = .function →
      (State.newThread s (.handle k)).Fails State.foreignFunction w ∧
      (State.foreignFunction.kind = (k.rejection w).kind ↔ w.isOpen k.state = true) := by
  have sound := reaches.sound
  refine ⟨fun s => sound.contains s, ?_, fun s k foreign => sound.turnsAway foreign, ?_⟩
  · rintro before s task v after rfl
    exact reaches.passage.split.2.1
  · intro s k foreign kind
    have failing : (State.newThread s (.handle k)).Meets (Failing State.foreignFunction) w := by
      simp only [State.newThread, Value.ofKind?, kind, if_true, if_pos foreign]
      exact rfl
    refine ⟨failing.fails sound, ?_⟩
    rw [k.rejection_kind w]
    cases w.isOpen k.state <;> simp [State.foreignFunction]

/-- A state gives away a function and is closed while another one is open. -/
def orphaning : List Step := [
  ⟨.openState .bare, []⟩, ⟨.createFunction 0 .echo, ["f"]⟩, ⟨.openState .bare, []⟩, ⟨.close 0, []⟩]

theorem states_apart_orphaning : ∃ moments k, Reaches moments (Step.play {} orphaning) ∧
    (Step.play {} orphaning).holdings.values.map (·.2.handle?) = [some k] ∧
    ((Value.handle k).toDatum 1).Fails .stateClosed (Step.play {} orphaning) ∧
    (State.newThread 1 (.handle k)).Fails State.foreignFunction (Step.play {} orphaning) := by
  obtain ⟨moments, session⟩ := Session.start.play orphaning
  have reaches := Reaches.of_session session
  obtain ⟨-, -, turnsAway, coroutines⟩ := reaches.states_apart
  obtain ⟨held, closed⟩ : (Step.play {} orphaning).holdings.values.map (·.2.handle?) =
      [some ⟨.function, ⟨0, 29⟩, 0⟩] ∧ (Step.play {} orphaning).isOpen 0 = false := by
    decide +kernel
  have alone := (turnsAway 1 ⟨.function, ⟨0, 29⟩, 0⟩ (by decide)).alone
  have reason : Handle.rejection (Step.play {} orphaning) ⟨.function, ⟨0, 29⟩, 0⟩ =
      .stateClosed := by
    simp [Handle.rejection, Handle.state, closed]
  rw [reason] at alone
  exact ⟨moments, _, reaches, held, alone, (coroutines 1 _ (by decide) rfl).1⟩

end ScriptBridge
