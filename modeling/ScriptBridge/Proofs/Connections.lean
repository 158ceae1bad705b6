import ScriptBridge.Host.Samples
import ScriptBridge.Proofs.Ownership
import ScriptBridge.Proofs.Tree

/-!
The connections of an object are what its history says: each successful connection stands, in the
order of connection, until an operation names it; no number is given twice.
-/

namespace ScriptBridge

open ScriptBridge.Action (Meets)

/-- The connections of an object and the number of its next one. -/
structure Wires where
  connections : List Connection := []
  next : Nat := 0

namespace Wires

def connect (wires : Wires) (signal : String) (receiver : Receiver) : Wires :=
  ⟨wires.connections ++ [⟨wires.next, signal, receiver⟩], wires.next + 1⟩

def filter (wires : Wires) (keep : Connection → Bool) : Wires :=
  { wires with connections := wires.connections.filter keep }

/-- Numbers increase along the connections and have all been given already. -/
structure Numbered (wires : Wires) : Prop where
  increasing : (wires.connections.map (·.id)).Pairwise (· < ·)
  given : ∀ c ∈ wires.connections, c.id < wires.next

/-- What one change of a world makes of the connections of an object. -/
inductive Becomes (made : Prop) : Option Wires → Option Wires → Prop where
  | same (wires : Option Wires) : Becomes made wires wires
  | connected (wires : Wires) (signal : String) (receiver : Receiver) :
    Becomes made (some wires) (some (wires.connect signal receiver))
  | filtered (wires : Wires) (keep : Connection → Bool) :
    Becomes made (some wires) (some (wires.filter keep))
  | gone (wires : Option Wires) : Becomes made wires none
  | fresh (unmade : ¬ made) (wires : Option Wires) : Becomes made wires (some {})

theorem numbered_empty : ({} : Wires).Numbered := ⟨.nil, by simp⟩

namespace Numbered

variable {wires : Wires} (numbered : wires.Numbered)
include numbered

theorem connect (signal : String) (receiver : Receiver) :
    (wires.connect signal receiver).Numbered where
  increasing := by
    simp only [Wires.connect, List.map_append, List.map_cons, List.map_nil, List.pairwise_append,
      List.pairwise_cons, List.mem_map, List.mem_singleton]
    refine ⟨numbered.increasing, ⟨by simp, .nil⟩, ?_⟩
    rintro _ ⟨c, member, rfl⟩ _ rfl
    exact numbered.given c member
  given := by
    intro c member
    rcases List.mem_append.mp member with old | new
    · exact Nat.lt_succ_of_lt (numbered.given c old)
    · rw [List.mem_singleton.mp new]
      exact Nat.lt_succ_self _

theorem filter (keep : Connection → Bool) : (wires.filter keep).Numbered where
  increasing := numbered.increasing.sublist (List.filter_sublist.map _)
  given := fun c member => numbered.given c (List.mem_filter.mp member).1

end Numbered

end Wires

/-- The connections of an object, and the number of its next one. -/
def HostObject.wires (object : HostObject) : Wires := ⟨object.connections, object.nextConnection⟩

namespace World

def wires? (w : World) (o : ObjectId) : Option Wires := (w.object? o).map (·.wires)

/-- The connections of an object, in the order in which they were made. -/
def connections (w : World) (o : ObjectId) : List Connection :=
  ((w.wires? o).map (·.connections)).getD []

theorem connectionCount_eq (w : World) (o : ObjectId) :
    w.connectionCount o = (w.connections o).length := by
  unfold connectionCount connections wires?
  cases w.object? o <;> rfl

theorem connectionsOf_eq (w : World) (o : ObjectId) (signal : String) :
    w.connectionsOf o signal = (w.connections o).filter (·.signal == signal) := by
  unfold connectionsOf connections wires?
  cases w.object? o <;> rfl

theorem wires?_modifyObject {w : World} {i : ObjectId} {f : HostObject → HostObject}
    {g : Wires → Wires} (acts : ∀ object, (f object).wires = g object.wires) (o : ObjectId) :
    (w.modifyObject i f).wires? o = if i = o then (w.wires? o).map g else w.wires? o := by
  unfold wires?
  rw [object?_modifyObject]
  split
  · simp only [Option.map_map]
    exact congrArg (Option.map · _) (funext acts)
  · rfl

/-- A change of what an object has connected is one of these changes. -/
theorem becomes_modifyObject {w : World} {i o : ObjectId} {f : HostObject → HostObject}
    {g : Wires → Wires} (acts : ∀ object, (f object).wires = g object.wires) {made : Prop}
    (becomes : ∀ wires, Wires.Becomes made (some wires) (some (g wires))) :
    Wires.Becomes made (w.wires? o) ((w.modifyObject i f).wires? o) := by
  rw [wires?_modifyObject acts]
  split
  · cases w.wires? o with
    | none => exact .same none
    | some wires => exact becomes wires
  · exact .same _

theorem wires_disconnect (object : HostObject) (signal : String) (key : Option ReceiverKey) :
    (object.disconnect signal key).wires =
      object.wires.filter fun c => !(c.signal == signal && key.all c.receiver.isFor) := rfl

theorem wires_disconnectId (object : HostObject) (id : Nat) :
    (object.disconnectId id).wires = object.wires.filter (·.id != id) := rfl

theorem becomes_markDestroyed (w : World) (i o : ObjectId) (made : Prop) :
    Wires.Becomes made (w.wires? o) ((w.markDestroyed i).wires? o) := by
  unfold markDestroyed wires?
  rw [object?_modifyObject]
  split
  · cases w.object? o with
    | none => exact .same none
    | some object =>
      simp only [Option.map_some]
      split
      · exact .same _
      · have cleared : Wires.Becomes made (some object.wires) _ :=
          .filtered object.wires fun _ => false
        simpa [Wires.filter, HostObject.wires] using cleared
  · exact .same _

/-- What an operation that touches host objects makes of the connections of one of them. -/
theorem becomes_op (o : Op β) (w : World) (touches : o.Touches) (i : ObjectId) :
    Wires.Becomes (Made i w) (w.wires? i) ((o.apply w).2.wires? i) := by
  have plain {j : ObjectId} {f : HostObject → HostObject}
      (keeps : ∀ object, (f object).wires = object.wires) :
      Wires.Becomes (Made i w) (w.wires? i) ((w.modifyObject j f).wires? i) :=
    becomes_modifyObject (g := id) keeps fun wires => .same _
  have still {w' : World} (same : w'.wires? i = w.wires? i) :
      Wires.Becomes (Made i w) (w.wires? i) (w'.wires? i) := same ▸ .same _
  cases o with
  | newObject cls name =>
    simp only [Op.apply, wires?, object?_newObject]
    split
    · rename_i new
      exact .fresh (by simp [Made, new]) _
    · exact .same _
  | rename | store | newWrapper => exact plain fun _ => rfl
  | setParent j parent => exact still (map_setParent (fun _ _ _ => rfl) w j parent i)
  | connect j signal receiver =>
    exact becomes_modifyObject (g := (·.connect signal receiver)) (fun _ => rfl)
      fun wires => .connected wires signal receiver
  | disconnect j signal key =>
    exact becomes_modifyObject (wires_disconnect · signal key) fun wires => .filtered wires _
  | disconnectId j id =>
    exact becomes_modifyObject (wires_disconnectId · id) fun wires => .filtered wires _
  | retire j =>
    have left : ((w.retire j).2.wires? i) = (w.markDestroyed j).wires? i :=
      (map_releaseChildren (fun _ _ _ => rfl) _ j i).trans (map_detach (fun _ _ _ => rfl) _ j i)
    rw [Op.apply, left]
    exact becomes_markDestroyed w j i _
  | markDestroyed j => exact becomes_markDestroyed w j i _
  | dropNative n =>
    rcases objects_dropNative w n with same | ⟨j, same⟩
    · exact still (by simp only [Op.apply, wires?, object?, same])
    · have kept : (w.dropNative n).2.wires? i =
          (w.modifyObject j fun object => { object with owned := false }).wires? i := by
        simp only [wires?, object?, same]
      rw [Op.apply, kept]
      exact plain fun _ => rfl
  | reap =>
    simp only [Op.apply, reap]
    cases w.objects.ids.find? (!w.heldObjects.contains ·) with
    | none => exact .same _
    | some j =>
      have released := map_releaseChildren (g := (·.wires)) (fun _ _ _ => rfl) w j i
      simp only [wires?, object?, Store.get?_erase]
      split
      · exact .gone _
      · exact still released
  | _ => exact touches.elim

/-- What connecting and disconnecting keep holds of the connections of an object later on; an object
that is yet to be made begins without any. -/
theorem Later.keeps_wires {P : Wires → Prop} {o : ObjectId} {w w' : World} (later : w.Later w')
    (connect : ∀ wires signal receiver, P wires → P (wires.connect signal receiver))
    (filter : ∀ wires keep, P wires → P (wires.filter keep)) (fresh : Made o w ∨ P {})
    (holds : ∀ wires, w.wires? o = some wires → P wires) :
    ∀ wires, w'.wires? o = some wires → P wires := by
  let Q (w : World) : Prop :=
    (Made o w ∨ P {}) ∧ ∀ wires, w.wires? o = some wires → P wires
  suffices kept : Q w' from kept.2
  refine later.keeps (P := Q) (Change.keeps_objects ?_ ?_) ⟨fresh, holds⟩
  · rintro w w' same ⟨fresh, holds⟩
    simpa [Q, Made, wires?, object?, same] using And.intro fresh holds
  · rintro β op w - touches ⟨fresh, holds⟩
    refine ⟨fresh.imp_left (·.op op w touches), fun wires found => ?_⟩
    have becomes := becomes_op op w touches o
    rw [found] at becomes
    generalize before : w.wires? o = old at becomes
    cases becomes with
    | same => exact holds wires before
    | connected old signal receiver => exact connect old signal receiver (holds old before)
    | filtered old keep => exact filter old keep (holds old before)
    | fresh unmade => exact fresh.resolve_left unmade

end World

/-- Where one looks, the connections of every object are numbered in their order, and later they
still are. -/
theorem Reaches.numbered {moments : List Moment} {w w' : World} (reaches : Reaches moments w)
    (later : w.Later w') {o : ObjectId} {wires : Wires} (found : w'.wires? o = some wires) :
    wires.Numbered := by
  refine World.Later.keeps_wires (reaches.passage.arrives.trans later)
    (fun _ _ _ numbered => numbered.connect _ _) (fun _ _ numbered => numbered.filter _)
    (.inr Wires.numbered_empty) ?_ wires found
  simp [World.wires?, World.object?]

/-- An operation on the connections of one object. -/
inductive Wiring where
  | connect (s : StateId) (signal : String) (callable : Value)
  | connectSlot (signal : String) (target : ObjectId) (slot : String)
  | disconnect (signal : String) (callable : Option Value)
  | disconnectSlot (signal : String) (target : ObjectId) (slot : String)
  | disconnectId (id : Nat)
  | destroy

/-- What an operation on connections gives. -/
inductive Reply where
  | connected (id : Nat)
  | removed (any : Bool)
  | destroyed
deriving DecidableEq

/-- What a successful operation means for the connections of its object; signals and slots go by
their signatures. -/
inductive Event where
  | connected (c : Connection)
  /-- Those of a script value, or all of the signal. -/
  | disconnected (signal : String) (callable : Option Value)
  | disconnectedSlot (signal : String) (target : ObjectId) (slot : String)
  | disconnectedId (id : Nat)
  | destroyed

namespace Event

/-- Whether an event takes a connection away. -/
def covers : Event → Connection → Bool
  | .connected _, _ => false
  | .disconnected signal callable, c =>
    c.signal == signal && callable.all fun v => match c.receiver with
      | .script _ own => own.eq v
      | .slot .. => false
  | .disconnectedSlot signal target slot, c =>
    c.signal == signal && match c.receiver with
      | .script .. => false
      | .slot ownTarget ownSlot _ _ => ownTarget == target && ownSlot == slot
  | .disconnectedId id, c => c.id == id
  | .destroyed, _ => true

/-- The connection that an event makes. -/
def made : Event → Option Connection
  | .connected c => some c
  | _ => none

/-- Whether no event takes a connection away. -/
def spare (history : List Event) (c : Connection) : Bool := history.all (!·.covers c)

/-- The connections that events make and no later one takes away. -/
def lasting : List Event → List Connection
  | [] => []
  | e :: later => e.made.toList.filter (spare later) ++ lasting later

theorem spare_nil : spare [] = fun _ => true := rfl

@[simp] theorem spare_singleton (e : Event) : spare [e] = (!e.covers ·) :=
  funext fun _ => by simp [spare]

@[simp] theorem lasting_singleton (e : Event) : lasting [e] = e.made.toList := by
  simp [lasting, spare_nil]

theorem spare_append (history later : List Event) :
    spare (history ++ later) = fun c => spare history c && spare later c :=
  funext fun _ => List.all_append

theorem lasting_append (history later : List Event) :
    lasting (history ++ later) = (lasting history).filter (spare later) ++ lasting later := by
  induction history with
  | nil => rfl
  | cons e rest ih =>
    simp only [List.cons_append, lasting, ih, List.filter_append, List.filter_filter, spare_append,
      List.append_assoc]
    simp only [Bool.and_comm]

end Event

namespace World

/-- The signature that a name stands for among the signals of an object. -/
def signalOf (w : World) (o : ObjectId) (signal : String) : Option String :=
  ((w.classOf o).signal? signal).map (·.text)

/-- The signature that a name stands for among the slots of an object. -/
def slotOf (w : World) (o : ObjectId) (slot : String) : Option String :=
  ((w.classOf o).slot? slot).map (·.text)

end World

namespace Wiring

def program (o : ObjectId) : Wiring → Action Reply
  | .connect s signal callable => .connected <$> Host.connect s o signal callable
  | .connectSlot signal target slot => .connected <$> Host.connectSlot o signal target slot
  | .disconnect signal callable => .removed <$> Host.disconnect o signal callable
  | .disconnectSlot signal target slot => .removed <$> Host.disconnectSlot o signal target slot
  | .disconnectId id => .removed <$> .perform (.disconnectId o id)
  | .destroy => do
    .ask (.destroy o)
    pure .destroyed

/-- What an operation with a result means for the connections of an object. -/
def event (w : World) (o : ObjectId) : Wiring → Except Fault Reply → Option Event
  | .connect s signal callable, .ok (.connected id) => do
    pure (.connected ⟨id, ← w.signalOf o signal, .script s callable⟩)
  | .connectSlot signal target slot, .ok (.connected id) => do
    let m ← (w.classOf target).slot? slot
    pure (.connected
      ⟨id, ← w.signalOf o signal, .slot target m.text (← m.body) m.params.length⟩)
  | .disconnect signal callable, .ok _ => do
    pure (.disconnected (← w.signalOf o signal) callable)
  | .disconnectSlot signal target slot, .ok _ => do
    pure (.disconnectedSlot (← w.signalOf o signal) target (← w.slotOf target slot))
  | .disconnectId id, .ok _ => some (.disconnectedId id)
  | .destroy, .ok _ => some .destroyed
  | _, _ => none

end Wiring

namespace World

variable {w : World} {o : ObjectId}

theorem connections_of_wires? {wires : Wires} (found : w.wires? o = some wires) :
    w.connections o = wires.connections := by
  simp [connections, found]

/-- A new connection comes last and has the next number. -/
theorem wires?_connect {wires : Wires} (found : w.wires? o = some wires) (signal : String)
    (receiver : Receiver) :
    (w.connect o signal receiver).1 = wires.next ∧
      (w.connect o signal receiver).2.wires? o = some (wires.connect signal receiver) := by
  obtain ⟨object, there, rfl⟩ := Option.map_eq_some_iff.mp found
  refine ⟨by simp [World.connect, there, HostObject.wires], ?_⟩
  have changed := wires?_modifyObject (w := w) (i := o) (f := (·.connect signal receiver))
    (g := (·.connect signal receiver)) (fun _ => rfl) o
  rw [if_pos rfl, found] at changed
  exact changed

/-- What is left after connections have been removed, and whether there were any. -/
theorem removed_connections {f : HostObject → HostObject} {keep : Connection → Bool}
    (acts : ∀ object, (f object).wires = object.wires.filter keep) :
    (w.modifyObject o f).connections o = (w.connections o).filter keep ∧
      (((w.modifyObject o f).connectionCount o != w.connectionCount o) = true ↔
        (w.modifyObject o f).connections o ≠ w.connections o) := by
  have left : (w.modifyObject o f).connections o = (w.connections o).filter keep := by
    unfold connections
    rw [wires?_modifyObject (g := (·.filter keep)) acts, if_pos rfl]
    cases w.wires? o <;> rfl
  refine ⟨left, ?_⟩
  rw [connectionCount_eq, connectionCount_eq, left, bne_iff_ne, ne_eq, ne_eq,
    List.filter_eq_self.trans List.length_filter_eq_length_iff.symm]

end World

namespace Wiring

/-- What an operation does to the connections of its object. -/
structure Rewires (op : Wiring) (o : ObjectId) (w : World) (result : Except Fault Reply)
    (w' : World) : Prop where
  table : w'.connections o =
    (w.connections o).filter (Event.spare (op.event w o result).toList) ++
      Event.lasting (op.event w o result).toList
  connected : ∀ id, result = .ok (.connected id) →
    ∃ c, op.event w o result = some (.connected c) ∧ c.id = id
  made : ∀ c, op.event w o result = some (.connected c) → ∃ wires, w.wires? o = some wires ∧
    c.id = wires.next ∧ w'.wires? o = some (wires.connect c.signal c.receiver) ∧
    ∀ i, w'.classOf i = w.classOf i
  removed : ∀ any, result = .ok (.removed any) →
    (any = true ↔ w'.connections o ≠ w.connections o)

variable {o : ObjectId} {w : World}

/-- An operation that fails where it is changes nothing. -/
theorem rewires_failed (op : Wiring) (f : Fault) : op.Rewires o w (.error f) w where
  table := by
    have none : op.event w o (.error f) = none := by cases op <;> rfl
    simp [none, Event.spare_nil, Event.lasting]
  connected := fun _ none => by simp at none
  made := fun c none => by cases op <;> cases none
  removed := fun _ none => by simp at none

/-- A program goes on with a signal that its name stands for. -/
theorem meets_findSignal {signal : String} {f : Member → Action α}
    {Q : Except Fault α → World → Prop} (unknown : ∀ e, Q (.error (.failed e)) w)
    (known : ∀ m, w.signalOf o signal = some m.text → (f m).Meets Q w) :
    (Action.view (fun w => (w.classOf o).findSignal signal) >>= fun found =>
      Action.ofExcept found >>= f).Meets Q w := by
  refine Meets.view_iff.mpr (Meets.ofExcept_iff.mpr ⟨fun m found => known m ?_, fun e _ => unknown e⟩)
  unfold Class.findSignal at found
  unfold World.signalOf
  split at found
  · rename_i m' here
    simp only [Except.ok.injEq] at found
    simp [here, found]
  · simp at found

/-- A program goes on with a slot that its name stands for. -/
theorem meets_findSlot {target : ObjectId} {slot : String} {f : Member → Action α}
    {Q : Except Fault α → World → Prop} (unknown : ∀ e, Q (.error (.failed e)) w)
    (known : ∀ m, (w.classOf target).slot? slot = some m → (f m).Meets Q w) :
    (Action.view (fun w => (w.classOf target).findSlot slot) >>= fun found =>
      Action.ofExcept found >>= f).Meets Q w := by
  refine Meets.view_iff.mpr (Meets.ofExcept_iff.mpr ⟨fun m found => known m ?_, fun e _ => unknown e⟩)
  unfold Class.findSlot at found
  split at found
  · rename_i m' here
    simp only [Except.ok.injEq] at found
    simp [here, found]
  · simp at found

/-- A program goes on with an object that is alive. -/
theorem meets_alive {f : Unit → Action α} {Q : Except Fault α → World → Prop}
    (destroyed : ∀ e, Q (.error (.failed e)) w)
    (alive : w.isDestroyed o = false → (f ()).Meets Q w) :
    (Action.view (·.ensureAlive o) >>= fun checked => Action.ofExcept checked >>= f).Meets Q w := by
  refine Meets.view_iff.mpr (Meets.ofExcept_iff.mpr ⟨fun _ checked => ?_, fun e _ => destroyed e⟩)
  exact alive (World.ensureAlive_iff.mp checked)

theorem rewires_connect {op : Wiring} {signal : String} {receiver : Receiver}
    (alive : w.isDestroyed o = false)
    (event : ∀ id, op.event w o (.ok (.connected id)) = some (.connected ⟨id, signal, receiver⟩)) :
    op.Rewires o w (.ok (.connected (w.connect o signal receiver).1))
      (w.connect o signal receiver).2 := by
  obtain ⟨object, there, -⟩ := World.object_of_alive alive
  have found : w.wires? o = some object.wires := by simp [World.wires?, there]
  obtain ⟨number, after⟩ := World.wires?_connect found signal receiver
  constructor
  · rw [event, World.connections_of_wires? after, World.connections_of_wires? found, number]
    simp [Wires.connect, Event.covers, Event.made]
  · rintro _ ⟨⟩
    exact ⟨_, event _, rfl⟩
  · intro c same
    rw [event] at same
    cases same
    have classes (i : ObjectId) := World.map_modifyObject (w := w) (i := o) (g := (·.cls))
      (f := (·.connect signal receiver)) (fun _ => rfl) i
    exact ⟨_, found, number, after, fun i => congrArg (Option.getD · Class.root) (classes i)⟩
  · exact fun _ none => by simp at none

theorem rewires_remove {op : Wiring} {e : Event} {f : HostObject → HostObject}
    (acts : ∀ object, (f object).wires = object.wires.filter (!e.covers ·))
    (made : e.made = none) {any : Bool}
    (event : op.event w o (.ok (.removed any)) = some e)
    (counted : any = ((w.modifyObject o f).connectionCount o != w.connectionCount o)) :
    op.Rewires o w (.ok (.removed any)) (w.modifyObject o f) := by
  obtain ⟨left, removed⟩ := World.removed_connections (w := w) (o := o) acts
  constructor
  · rw [event, left]
    simp [made]
  · exact fun _ none => by simp at none
  · intro c same
    rw [event] at same
    cases same
    simp [Event.made] at made
  · rintro _ ⟨⟩
    rw [counted]
    exact removed

theorem meets_connect (s : StateId) (signal : String) (callable : Value) :
    ((Wiring.connect s signal callable).program o).Meets
      (Rewires (.connect s signal callable) o w) w := by
  have failed (e : BridgeError) : Rewires (.connect s signal callable) o w (.error (.failed e)) w :=
    rewires_failed _ _
  refine Meets.bind_iff.mpr (meets_findSignal failed fun m named => ?_)
  split
  · exact failed _
  · refine meets_alive failed fun alive => ⟨alive, ?_⟩
    refine rewires_connect alive fun id => ?_
    simp [event, named]

theorem meets_connectSlot (signal : String) (target : ObjectId) (slot : String) :
    ((Wiring.connectSlot signal target slot).program o).Meets
      (Rewires (.connectSlot signal target slot) o w) w := by
  have failed (e : BridgeError) :
      Rewires (.connectSlot signal target slot) o w (.error (.failed e)) w := rewires_failed _ _
  refine Meets.bind_iff.mpr (meets_findSignal failed fun m named => ?_)
  refine meets_findSlot failed fun slotMember found => ?_
  split
  · exact failed _
  · split
    · exact failed _
    · rename_i body runs
      refine meets_alive failed fun alive => meets_alive failed fun _ => ⟨alive, ?_⟩
      refine rewires_connect alive fun id => ?_
      simp [event, named, found, runs]

theorem meets_disconnect (signal : String) (callable : Option Value) :
    ((Wiring.disconnect signal callable).program o).Meets
      (Rewires (.disconnect signal callable) o w) w := by
  refine Meets.bind_iff.mpr (meets_findSignal (fun _ => rewires_failed _ _) fun m named => ?_)
  refine ⟨trivial, rewires_remove (e := .disconnected m.text callable) (fun object => ?_) rfl ?_ rfl⟩
  · rw [World.wires_disconnect]
    refine congrArg object.wires.filter (funext fun c => ?_)
    cases callable <;> rfl
  · simp [event, named]

theorem meets_disconnectSlot (signal : String) (target : ObjectId) (slot : String) :
    ((Wiring.disconnectSlot signal target slot).program o).Meets
      (Rewires (.disconnectSlot signal target slot) o w) w := by
  refine Meets.bind_iff.mpr (meets_findSignal (fun _ => rewires_failed _ _) fun m named => ?_)
  refine meets_findSlot (fun _ => rewires_failed _ _) fun slotMember found => ?_
  refine ⟨trivial, rewires_remove (e := .disconnectedSlot m.text target slotMember.text)
    (World.wires_disconnect · m.text (some (.slot target slotMember.text))) rfl ?_ rfl⟩
  simp [event, named, World.slotOf, found]

theorem meets_disconnectId (id : Nat) :
    ((Wiring.disconnectId id).program o).Meets (Rewires (.disconnectId id) o w) w :=
  ⟨trivial, rewires_remove (e := .disconnectedId id) (World.wires_disconnectId · id) rfl rfl rfl⟩

end Wiring

/-- A destruction that has been asked for fails only if requests are nested too deeply. -/
theorem exhausted_of_destroy {o : ObjectId} {w w' : World} {moments : List Moment} {f : Fault}
    (runs : Runs (.ask (.destroy o)) w moments (some (.error f)) w') : f = .exhausted := by
  -- The destruction of a child takes fewer moments than that of its parent.
  induction bound : moments.length using Nat.strong_induction_on generalizing o w w' moments with
  | _ n ih =>
  have children (items : List ObjectId) {w : World} {later : List Moment}
      (runs : Runs (items.forM fun child => .ask (.destroy child)) w later (some (.error f)) w')
      (fewer : later.length < n) : f = .exhausted := by
    induction items generalizing w later with
    | nil => cases runs
    | cons child rest next =>
      rcases runs.of_bind_error with failed | ⟨_, _, first, later, rfl, _, going⟩
      · exact ih _ fewer failed rfl
      · exact next going (by simp at fewer; omega)
  change Runs (.request (.destroy o) .pure) w moments _ w' at runs
  cases runs with
  | requestDone begins inner rest => cases rest
  | requestFailed begins inner =>
    cases begins with
    | refused =>
      cases inner with
      | fail => rfl
    | program =>
      change Runs (destroyObject o) w _ _ w' at inner
      obtain ⟨_, rfl, looked⟩ := inner.of_perform
      split at looked
      · cases looked
      · obtain ⟨_, rfl, going⟩ := looked.of_perform
        dsimp only at going
        split at going
        · rcases going.of_bind_error with failed | ⟨_, _, first, later, rfl, _, retiring⟩
          · rcases failed.of_bind_error with failed | ⟨_, _, _, _, _, _, done⟩
            · exact failed.of_attempt_error
            · cases done
          · obtain ⟨_, rfl, released⟩ := retiring.of_perform
            simp only [List.length_cons, List.length_append] at bound
            exact children _ released (by omega)
        · obtain ⟨_, rfl, released⟩ := going.of_perform
          simp only [List.length_cons] at bound
          exact children _ released (by omega)

/-- To destroy what is destroyed does nothing. -/
theorem idle_of_destroyed {o : ObjectId} {w w' : World} {moments : List Moment}
    (dead : w.isDestroyed o = true)
    (runs : Runs (.ask (.destroy o)) w moments (some (.ok ())) w') : w' = w := by
  change Runs (.request (.destroy o) .pure) w moments _ w' at runs
  cases runs with
  | requestDone begins inner rest =>
    cases rest
    cases begins with
    | refused => cases inner
    | program =>
      change Runs (destroyObject o) w _ _ w' at inner
      obtain ⟨_, -, looked⟩ := inner.of_perform
      rw [show (Op.apply (.view (·.isDestroyed o)) w).1 = true from dead] at looked
      exact looked.of_pure.2.2

namespace Wiring

variable {o : ObjectId} {w w' : World} {moments : List Moment} {result : Except Fault Reply}

theorem rewires_destroy (sound : w.Sound) (tidy : w.Tidy)
    (runs : Runs (Wiring.destroy.program o) w moments (some result) w')
    (ended : result ≠ .error .exhausted) : Rewires .destroy o w result w' := by
  have emptied {w : World} (tidy : w.Tidy) (dead : w.isDestroyed o = true) :
      w.connections o = [] := by
    have none := (tidy.retired o dead).2.2
    rwa [World.connectionCount_eq, List.length_eq_zero_iff] at none
  rcases result with f | reply
  · rcases runs.of_bind_error with failed | ⟨_, _, _, _, _, _, done⟩
    · exact absurd (exhausted_of_destroy failed) (fun same => ended (same ▸ rfl))
    · cases done
  obtain ⟨_, w₁, _, _, -, asked, done⟩ := runs.of_bind
  obtain ⟨-, same, rfl⟩ := done.of_pure
  cases same
  have none : w'.connections o = [] := by
    cases alive : w.isDestroyed o with
    | true => exact (idle_of_destroyed alive asked) ▸ emptied tidy alive
    | false =>
      have safe : Action.Safe (.ask (.destroy o)) := .ask trivial fun _ _ _ _ => trivial
      have later := ((safe w sound).passage sound asked).1.arrives
      exact emptied (later.keeps (fun _ _ => World.Tidy.change) tidy)
        ((destroyed_of_ask sound alive asked).2 rfl)
  constructor
  · simp [none, event, Event.covers, Event.made]
  · exact fun _ none => by simp at none
  · exact fun _ none => by simp [event] at none
  · exact fun _ none => by simp at none

/-- What an operation that has ended has done to the connections of its object. -/
theorem rewires (op : Wiring) (sound : w.Sound) (tidy : w.Tidy)
    (runs : Runs (op.program o) w moments (some result) w')
    (ended : result ≠ .error .exhausted) : op.Rewires o w result w' := by
  have straight (meets : (op.program o).Meets (op.Rewires o w) w) : op.Rewires o w result w' :=
    (meets.passage sound runs).2 result rfl
  cases op with
  | connect s signal callable => exact straight (meets_connect s signal callable)
  | connectSlot signal target slot => exact straight (meets_connectSlot signal target slot)
  | disconnect signal callable => exact straight (meets_disconnect signal callable)
  | disconnectSlot signal target slot => exact straight (meets_disconnectSlot signal target slot)
  | disconnectId id => exact straight (meets_disconnectId id)
  | destroy => exact rewires_destroy sound tidy runs ended

theorem safe_program (op : Wiring) (o : ObjectId) : (op.program o).Safe := by
  cases op with
  | connect s signal callable => exact .map (Host.safe_connect s o signal callable) fun _ _ => trivial
  | connectSlot signal target slot =>
    exact .map (Host.safe_connectSlot o signal target slot) fun _ _ => trivial
  | disconnect signal callable =>
    exact .map (Host.safe_disconnect o signal callable) fun _ _ => trivial
  | disconnectSlot signal target slot =>
    exact .map (Host.safe_disconnectSlot o signal target slot) fun _ _ => trivial
  | disconnectId id => exact .map (P := fun _ => True) (.act fun _ _ => trivial) fun _ _ => trivial
  | destroy =>
    exact .bind (P := fun _ => True) (.ask trivial fun _ _ _ _ => trivial) fun _ _ => .pure trivial

end Wiring

/-- Operations on the connections of an object, one after another, and what the successful ones
mean. In between anything may happen that leaves these connections alone. -/
inductive Plays (o : ObjectId) : World → List Event → World → Prop where
  | nil (w : World) : Plays o w [] w
  | meanwhile {w w₁ w₂ : World} {history : List Event} (later : w.Later w₁)
      (same : w₁.connections o = w.connections o) (rest : Plays o w₁ history w₂) :
    Plays o w history w₂
  | step {w w₁ w₂ : World} {moments : List Moment} {result : Except Fault Reply}
      {history : List Event} (op : Wiring)
      (runs : Runs (op.program o) w moments (some result) w₁)
      (ended : result ≠ .error .exhausted) (rest : Plays o w₁ history w₂) :
    Plays o w ((op.event w o result).toList ++ history) w₂

namespace Plays

variable {o : ObjectId} {w w' : World} {history : List Event}

theorem later (plays : Plays o w history w') (sound : w.Sound) : w.Later w' := by
  induction plays with
  | nil w => exact .refl
  | meanwhile between _ _ ih => exact between.trans (ih (between.sound sound))
  | step op runs _ rest ih =>
    have first := ((op.safe_program o _ sound).passage sound runs).1.arrives
    exact first.trans (ih (first.sound sound))

/-- The connections of an object are those that it had and those that it got, without those that
were taken away afterwards. -/
theorem table (plays : Plays o w history w') (sound : w.Sound) (tidy : w.Tidy) :
    w'.connections o =
      (w.connections o).filter (Event.spare history) ++ Event.lasting history := by
  induction plays with
  | nil w => simp [Event.spare_nil, Event.lasting]
  | meanwhile between same _ ih =>
    exact same ▸ ih (between.sound sound) (between.keeps (fun _ _ => World.Tidy.change) tidy)
  | step op runs ended rest ih =>
    have first := ((op.safe_program o _ sound).passage sound runs).1.arrives
    rw [ih (first.sound sound) (first.keeps (fun _ _ => World.Tidy.change) tidy),
      (op.rewires sound tidy runs ended).table]
    simp only [List.filter_append, List.filter_filter, Event.spare_append, Event.lasting_append,
      List.append_assoc, Bool.and_comm]

/-- Connections get numbers that have not been given before, one after another. -/
theorem numbers (plays : Plays o w history w') (sound : w.Sound) (tidy : w.Tidy) :
    ((history.filterMap Event.made).map (·.id)).Pairwise (· < ·) ∧
      ∀ n, World.Made o w → (∀ wires, w.wires? o = some wires → n ≤ wires.next) →
        ∀ c ∈ history.filterMap Event.made, n ≤ c.id := by
  have kept {w w₁ : World} {n : Nat} (first : w.Later w₁) (made : World.Made o w)
      (next : ∀ wires, w.wires? o = some wires → n ≤ wires.next) :
      World.Made o w₁ ∧ ∀ wires, w₁.wires? o = some wires → n ≤ wires.next :=
    ⟨made.later first, first.keeps_wires (fun _ _ _ le => Nat.le_succ_of_le le) (fun _ _ le => le)
      (.inl made) next⟩
  induction plays with
  | nil w => simp
  | meanwhile between _ _ ih =>
    obtain ⟨increasing, above⟩ :=
      ih (between.sound sound) (between.keeps (fun _ _ => World.Tidy.change) tidy)
    refine ⟨increasing, fun n made next => ?_⟩
    obtain ⟨made', next'⟩ := kept between made next
    exact above n made' next'
  | @step w w₁ w₂ _ result history op runs ended rest ih =>
    have first := ((op.safe_program o _ sound).passage sound runs).1.arrives
    obtain ⟨increasing, above⟩ :=
      ih (first.sound sound) (first.keeps (fun _ _ => World.Tidy.change) tidy)
    have bounded (n : Nat) (made : World.Made o w)
        (next : ∀ wires, w.wires? o = some wires → n ≤ wires.next) :
        ∀ c ∈ history.filterMap Event.made, n ≤ c.id := by
      obtain ⟨made', next'⟩ := kept first made next
      exact above n made' next'
    cases happened : (op.event w o result).bind Event.made with
    | none =>
      have none : (op.event w o result).toList.filterMap Event.made = [] := by
        cases event : op.event w o result with
        | none => rfl
        | some e => simpa [event] using happened
      rw [List.filterMap_append, none, List.nil_append]
      exact ⟨increasing, bounded⟩
    | some c =>
      have event : op.event w o result = some (.connected c) := by
        obtain ⟨e, event, made⟩ := Option.bind_eq_some_iff.mp happened
        cases e <;> simp_all [Event.made]
      obtain ⟨wires, found, number, after, -⟩ := (op.rewires sound tidy runs ended).made c event
      obtain ⟨object, there, -⟩ := Option.map_eq_some_iff.mp after
      have beyond : ∀ d ∈ history.filterMap Event.made, c.id < d.id := by
        refine above (c.id + 1) (World.lt_next_of_object? there) fun wires' found' => ?_
        rw [after] at found'
        cases found'
        simp [Wires.connect, number]
      rw [event]
      refine ⟨?_, fun n made next d member => ?_⟩
      · refine List.pairwise_cons.mpr ⟨fun number given => ?_, increasing⟩
        obtain ⟨d, member, rfl⟩ := List.mem_map.mp given
        exact beyond d member
      · rcases List.mem_cons.mp member with rfl | member
        · exact number ▸ next wires found
        · exact bounded n made next d member

end Plays

/-- Whether an operation disconnects the receiver that another one connects: both name the same
signal and the same receiver, in whatever spelling. -/
inductive Wiring.Undoes (w : World) (o : ObjectId) : Wiring → Wiring → Prop where
  | script {s : StateId} {signal signal' : String} {h h' : Handle}
    (sameSignal : w.signalOf o signal' = w.signalOf o signal) (sameKind : h'.kind = h.kind)
    (sameObject : h'.target = h.target) :
    Undoes w o (.disconnect signal' (some (.handle h'))) (.connect s signal (.handle h))
  | slot {signal signal' slot slot' : String} {target : ObjectId}
    (sameSignal : w.signalOf o signal' = w.signalOf o signal)
    (sameSlot : w.slotOf target slot' = w.slotOf target slot) :
    Undoes w o (.disconnectSlot signal' target slot') (.connectSlot signal target slot)

/-- What an operation means depends on the classes of objects only. -/
theorem Wiring.event_of_classes {w w' : World} (classes : ∀ i, w'.classOf i = w.classOf i)
    (op : Wiring) (o : ObjectId) (result : Except Fault Reply) :
    op.event w' o result = op.event w o result := by
  unfold Wiring.event
  simp only [World.signalOf, World.slotOf, classes]

theorem Wiring.Undoes.covers {w : World} {o : ObjectId} {back op : Wiring}
    (undoes : back.Undoes w o op) {id : Nat} {c : Connection}
    (made : op.event w o (.ok (.connected id)) = some (.connected c)) (reply : Reply) :
    ∃ e, back.event w o (.ok reply) = some e ∧ e.covers c = true ∧ e.made = none := by
  cases undoes with
  | @script s signal signal' h h' sameSignal sameKind sameObject =>
    obtain ⟨text, named, made⟩ := Option.bind_eq_some_iff.mp made
    cases made
    refine ⟨.disconnected text (some (.handle h')), by simp [event, sameSignal, named], ?_, rfl⟩
    simp [Event.covers, Value.eq, Handle.sameObject, sameKind, sameObject]
  | @slot signal signal' slot slot' target sameSignal sameSlot =>
    obtain ⟨m, found, made⟩ := Option.bind_eq_some_iff.mp made
    obtain ⟨text, named, made⟩ := Option.bind_eq_some_iff.mp made
    obtain ⟨body, -, made⟩ := Option.bind_eq_some_iff.mp made
    cases made
    have slotNamed : w.slotOf target slot' = some m.text := by
      rw [sameSlot]
      simp [World.slotOf, found]
    refine ⟨.disconnectedSlot text target m.text, by simp [event, sameSignal, named, slotNamed], ?_,
      rfl⟩
    simp [Event.covers]

/-- To take away the one connection of a number. -/
theorem Wires.Numbered.remove {wires : Wires} (numbered : wires.Numbered) (id : Nat) :
    wires.connections.filter (·.id != id) = wires.connections ∨
      ∃ before c after, wires.connections = before ++ c :: after ∧ c.id = id ∧
        wires.connections.filter (·.id != id) = before ++ after := by
  by_cases present : ∃ c ∈ wires.connections, c.id = id
  · obtain ⟨c, member, rfl⟩ := present
    obtain ⟨before, after, split⟩ := List.append_of_mem member
    refine .inr ⟨before, c, after, split, rfl, ?_⟩
    have increasing := numbered.increasing
    rw [split] at increasing ⊢
    simp only [List.map_append, List.map_cons, List.pairwise_append, List.pairwise_cons,
      List.mem_map, List.mem_cons] at increasing
    obtain ⟨-, ⟨above, -⟩, below⟩ := increasing
    have first : before.filter (·.id != c.id) = before := by
      refine List.filter_eq_self.mpr fun d member => ?_
      have less := below d.id ⟨d, member, rfl⟩ c.id (.inl rfl)
      simpa using Nat.ne_of_lt less
    have last : after.filter (·.id != c.id) = after := by
      refine List.filter_eq_self.mpr fun d member => ?_
      have less := above d.id ⟨d, member, rfl⟩
      simpa using Nat.ne_of_gt less
    simp [first, last]
  · refine .inl (List.filter_eq_self.mpr fun c member => ?_)
    simpa using fun same => present ⟨c, member, same⟩

/-- After operations on the connections of an object, its connections are those that the operations
have made and no later one has taken away, in the order of connection; their numbers increase and no
number is given twice. A disconnection tells whether it has removed anything, and by a number it
removes at most one connection. To disconnect a new receiver at once restores what was there. -/
theorem Reaches.connections_history {moments : List Moment} {w₀ w : World} {o : ObjectId}
    {history : List Event} (reaches : Reaches moments w₀) (plays : Plays o w₀ history w) :
    w.connections o =
      (w₀.connections o).filter (Event.spare history) ++ Event.lasting history ∧
    ((w.connections o).map (·.id)).Pairwise (· < ·) ∧
    ((w₀.connections o ++ history.filterMap Event.made).map (·.id)).Pairwise (· < ·) ∧
    (∀ (op : Wiring) during result w', Runs (op.program o) w during (some (.ok result)) w' →
      (∀ id, result = .connected id →
        ∃ c, op.event w o (.ok result) = some (.connected c) ∧ c.id = id) ∧
      (∀ any, result = .removed any → (any = true ↔ w'.connections o ≠ w.connections o)) ∧
      ∀ id, op = .disconnectId id → w'.connections o = w.connections o ∨
        ∃ before c after, w.connections o = before ++ c :: after ∧ c.id = id ∧
          w'.connections o = before ++ after) ∧
    ∀ (op back : Wiring) during id w₁ during' any w₂,
      Runs (op.program o) w during (some (.ok (.connected id))) w₁ →
      Runs (back.program o) w₁ during' (some (.ok (.removed any))) w₂ →
      back.Undoes w o op →
      (∀ e, back.event w o (.ok (.removed any)) = some e →
        ∀ c ∈ w.connections o, e.covers c = false) →
      any = true ∧ w₂.connections o = w.connections o := by
  have sound₀ := reaches.sound
  have tidy₀ : w₀.Tidy := reaches.holds World.tidy_empty fun _ _ => World.Tidy.change
  have later := plays.later sound₀
  have sound := later.sound sound₀
  have tidy : w.Tidy := later.keeps (fun _ _ => World.Tidy.change) tidy₀
  obtain ⟨increasing, above⟩ := plays.numbers sound₀ tidy₀
  have numbered : ∀ wires, w.wires? o = some wires → wires.Numbered := fun _ =>
    reaches.numbered later
  refine ⟨plays.table sound₀ tidy₀, ?_, ?_, ?_, ?_⟩
  · cases found : w.wires? o with
    | none => simp [World.connections, found]
    | some wires => exact World.connections_of_wires? found ▸ (numbered wires found).increasing
  · cases found : w₀.wires? o with
    | none => simpa [World.connections, found] using increasing
    | some wires =>
      obtain ⟨object, there, -⟩ := Option.map_eq_some_iff.mp found
      have old := reaches.numbered .refl found
      have fresh := above wires.next (World.lt_next_of_object? there) fun _ same =>
        (Option.some.inj (found.symm.trans same)) ▸ Nat.le_refl _
      rw [World.connections_of_wires? found, List.map_append, List.pairwise_append]
      refine ⟨old.increasing, increasing, ?_⟩
      rintro _ first _ second
      obtain ⟨c, given, rfl⟩ := List.mem_map.mp first
      obtain ⟨d, new, rfl⟩ := List.mem_map.mp second
      exact Nat.lt_of_lt_of_le (old.given c given) (fresh d new)
  · intro op during result w' runs
    have rewires := op.rewires sound tidy runs (by simp)
    refine ⟨fun id same => rewires.connected id (congrArg _ same),
      fun any same => rewires.removed any (congrArg _ same), ?_⟩
    rintro id rfl
    have left : w'.connections o = (w.connections o).filter (·.id != id) := by
      simpa [Wiring.event, Event.covers, Event.made, bne] using rewires.table
    rw [left]
    cases found : w.wires? o with
    | none => simp [World.connections, found]
    | some wires => exact World.connections_of_wires? found ▸ (numbered wires found).remove id
  · intro op back during id w₁ during' any w₂ connects disconnects undoes new
    have first := ((op.safe_program o _ sound).passage sound connects).1.arrives
    have made := op.rewires sound tidy connects (by simp)
    obtain ⟨c, event, -⟩ := made.connected id rfl
    obtain ⟨wires, -, -, -, classes⟩ := made.made c event
    have undone := back.rewires (first.sound sound)
      (first.keeps (fun _ _ => World.Tidy.change) tidy) disconnects (by simp)
    obtain ⟨e, meaning, covers, makes⟩ := undoes.covers event (.removed any)
    have spared : (w.connections o).filter (!e.covers ·) = w.connections o :=
      List.filter_eq_self.mpr fun d member => by simp [new e meaning d member]
    have between : w₁.connections o = w.connections o ++ [c] := by
      simpa [event, Event.covers, Event.made] using made.table
    have restored : w₂.connections o = w.connections o := by
      have table := undone.table
      rw [Wiring.event_of_classes classes, meaning, between] at table
      simpa [makes, spared, covers] using table
    refine ⟨(undone.removed any rfl).mpr ?_, restored⟩
    simp [restored, between]

/-- What is carried out is a history. -/
theorem Plays.run {o : ObjectId} {w w' : World} {history : List Event} (op : Wiring)
    (ended : ((op.program o).run w).1 ≠ .error .exhausted)
    (rest : Plays o ((op.program o).run w).2 history w') :
    Plays o w ((op.event w o ((op.program o).run w).1).toList ++ history) w' := by
  obtain ⟨moments, runs⟩ := (op.program o).runs_of_run w
  exact .step op runs ended rest

/-- An object that has signals and one that has slots. -/
def wired : List Step := [
  ⟨.newObject Samples.myObject "a", ["a"]⟩, ⟨.newObject Samples.sink "b", ["b"]⟩]

theorem connections_history_wired : ∃ moments history w,
    Reaches moments (Step.play {} wired) ∧ Plays 0 (Step.play {} wired) history w ∧
      (w.connections 0).map (·.id) = [1] := by
  obtain ⟨moments, session⟩ := Session.start.play wired
  have reaches := Reaches.of_session session
  have plays := Plays.run (o := 0) (w := Step.play {} wired)
    (.connectSlot "valueChanged" 1 "record") (by decide +kernel)
    (.run (.connectSlot "valueChanged( int )" 1 "ping") (by decide +kernel)
      (.run (.disconnectSlot "valueChanged" 1 "record(int)") (by decide +kernel) (.nil _)))
  refine ⟨moments, _, _, reaches, plays, ?_⟩
  rw [(reaches.connections_history plays).1]
  decide +kernel

end ScriptBridge
