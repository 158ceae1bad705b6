import ScriptBridge.Proofs.Connections
import ScriptBridge.Proofs.Emissions
import ScriptBridge.Proofs.Overloads
import ScriptBridge.Proofs.Signatures

/-!
Signals that are connected to slots. That a slot takes the first parameters of a signal is checked
when they are connected; an emission with arguments of the signal's types then calls the slot with
arguments of its own.
-/

namespace ScriptBridge

/-- Whether the parameters of a slot are the first ones of a signal, where `variant` stands for any
type. -/
def Signature.Begins (slot signal : List HostType) : Prop :=
  List.Forall₂ (fun s g => s = g ∨ s = .variant) slot (signal.take slot.length)

theorem Signature.compatible_iff {signal slot : List HostType} :
    compatible signal slot = true ↔ Begins slot signal := by
  unfold Begins
  induction slot generalizing signal with
  | nil => simp [compatible]
  | cons s slot ih =>
    cases signal with
    | nil => simp [compatible]
    | cons g signal =>
      rw [List.length_cons, List.take_succ_cons, List.forall₂_cons, ← ih]
      simp [compatible, and_left_comm]

/-- Whether there is an argument of the right type for each parameter; any argument is right for
`variant`. -/
def Suits (params : List HostType) (args : List HostValue) : Prop :=
  List.Forall₂ (fun t v => v.type = t ∨ t = .variant) params args

/-- The first arguments of a signal suit a slot that takes its first parameters. -/
theorem Signature.Begins.suits {slot : List HostType} {args : List HostValue}
    (begins : Begins slot (args.map HostValue.type)) : Suits slot (args.take slot.length) := by
  unfold Begins at begins
  rw [← List.map_take, List.forall₂_map_right_iff] at begins
  exact begins.imp fun _ _ => Or.imp_left Eq.symm

section Arguments

variable {w w' : World}

/-- What a value is converted to has the type that was asked for. -/
theorem HostType.type_of_fromValue {t : HostType} {v : Value} {host : HostValue}
    (ends : Ends (t.fromValue v) w (.ok host) w') : host.type = t := by
  have gives {α : Type} {a : Action α} {f : α → HostValue} {v : World} (typed : ∀ x, (f x).type = t)
      (ends : Ends (a >>= fun x => pure (f x)) v (.ok host) w') : host.type = t := by
    rcases Ends.bind_iff.mp ends with ⟨x, w₁, -, done⟩ | ⟨e, none, -⟩
    · cases (Ends.pure_iff.mp done).1
      exact typed x
    · cases none
  cases t with
  | void | variant =>
    cases (Ends.pure_iff.mp ends).1
    rfl
  | bool =>
    cases v with
    | nil | bool =>
      cases (Ends.pure_iff.mp ends).1
      rfl
    | _ => cases (Ends.throw_iff.mp ends).1
  | int | double | string => exact gives (fun _ => rfl) ends
  | object | native =>
    simp only [fromValue] at ends
    split at ends
    · cases (Ends.pure_iff.mp ends).1
      rfl
    · rw [Ends.view_bind_iff] at ends
      split at ends
      · cases (Ends.pure_iff.mp ends).1
        rfl
      · cases (Ends.throw_iff.mp ends).1
  | list =>
    simp only [fromValue] at ends
    split at ends
    · rcases Ends.bind_iff.mp ends with ⟨_, _, -, rest⟩ | ⟨_, none, -⟩
      · exact gives (fun _ => rfl) rest
      · cases none
    · cases (Ends.throw_iff.mp ends).1

/-- What each item of a list gives is as a condition says. -/
theorem Ends.forall₂_of_mapM {α β : Type} {items : List α} {f : α → Action β} {R : α → β → Prop}
    (each : ∀ item v y v', Ends (f item) v (.ok y) v' → R item y) {ys : List β}
    (ends : Ends (items.mapM f) w (.ok ys) w') : List.Forall₂ R items ys := by
  induction items generalizing w w' ys with
  | nil =>
    cases (pure_iff.mp ends).1
    exact .nil
  | cons item rest ih =>
    rw [List.mapM_cons] at ends
    rcases bind_iff.mp ends with ⟨y, w₁, first, going⟩ | ⟨_, none, -⟩
    · rcases bind_iff.mp going with ⟨ys, w₂, others, done⟩ | ⟨_, none, -⟩
      · cases (pure_iff.mp done).1
        exact .cons (each item w y w₁ first) (ih others)
      · cases none
    · cases none

/-- The arguments that a member is called with have the types of its parameters. -/
theorem types_of_marshalArgs {params : List HostType} {args : List Value} {hosts : List HostValue}
    (arity : params.length = args.length) (ends : Ends (marshalArgs params args) w (.ok hosts) w') :
    hosts.map HostValue.type = params := by
  refine types_of_forall₂ arity (Ends.forall₂_of_mapM (fun item v host v' one => ?_) ends)
  exact HostType.type_of_fromValue one

end Arguments

/-- A connection of a signal to a slot that takes the first parameters of the signal. -/
structure Connection.Joins (c : Connection) (signal slot : Member) (target : ObjectId) : Prop where
  named : c.signal = signal.text
  begins : Signature.Begins slot.params signal.params
  calls : ∃ body, slot.body = some body ∧
    c.receiver = .slot target slot.text body slot.params.length

namespace World

/-- The number of the next connection of an object. -/
def nextConnection (w : World) (o : ObjectId) : Nat := ((w.wires? o).map (·.next)).getD 0

/-- Between two worlds objects have been given connections that are as a condition says, and none
has been removed. -/
def Adds (w w' : World) (J : ObjectId → Connection → Prop) : Prop :=
  ∀ o, ∃ added, w'.connections o = w.connections o ++ added ∧ ∀ c ∈ added, J o c

variable {w w' v : World} {J : ObjectId → Connection → Prop}

/-- What a connection makes of the connections of all objects. -/
theorem connections_connect {o : ObjectId} {object : HostObject} (there : w.object? o = some object)
    (signal : String) (receiver : Receiver) (i : ObjectId) :
    (w.connect o signal receiver).2.connections i = w.connections i ++
      if o = i then [⟨w.nextConnection o, signal, receiver⟩] else [] := by
  have changed := wires?_modifyObject (w := w) (i := o) (f := (·.connect signal receiver))
    (g := (·.connect signal receiver)) (fun _ => rfl) i
  unfold connections
  rw [World.connect, changed]
  by_cases same : o = i
  · subst same
    have found : w.wires? o = some object.wires := by simp [wires?, there]
    simp [found, nextConnection, Wires.connect]
  · simp [same]

theorem Adds.refl (w : World) (J : ObjectId → Connection → Prop) : w.Adds w J :=
  fun _ => ⟨[], (List.append_nil _).symm, by simp⟩

/-- One more connection that is as the condition says. -/
theorem Adds.connect (adds : w.Adds v J) {o : ObjectId} {object : HostObject}
    (there : v.object? o = some object) {signal : String} {receiver : Receiver}
    (joins : J o ⟨v.nextConnection o, signal, receiver⟩) :
    w.Adds (v.connect o signal receiver).2 J := by
  intro i
  obtain ⟨added, split, each⟩ := adds i
  rw [connections_connect there, split, List.append_assoc]
  refine ⟨_, rfl, fun c member => ?_⟩
  rcases List.mem_append.mp member with old | new
  · exact each c old
  · split at new
    · rename_i same
      obtain rfl := List.mem_singleton.mp new
      exact same ▸ joins
    · cases new

theorem classOf_connect (o : ObjectId) (signal : String) (receiver : Receiver) (i : ObjectId) :
    (w.connect o signal receiver).2.classOf i = w.classOf i :=
  congrArg (Option.getD · Class.root)
    (map_modifyObject (g := (·.cls)) (f := (·.connect signal receiver)) (fun _ => rfl) i)

end World

/-- A number of a connection stands for the same connection for ever: later on there is this one, or
none. -/
theorem Reaches.same_connection {moments : List Moment} {w w' v : World}
    (reaches : Reaches moments w) (first : w.Later w') (later : w'.Later v) {o : ObjectId} {c d : Connection}
    (member : c ∈ w'.connections o) (there : d ∈ v.connections o) (same : d.id = c.id) : d = c := by
  have wired {w : World} {c : Connection} (member : c ∈ w.connections o) :
      ∃ wires, w.wires? o = some wires ∧ c ∈ wires.connections := by
    unfold World.connections at member
    cases found : w.wires? o with
    | none => simp [found] at member
    | some wires => exact ⟨wires, rfl, by simpa [found] using member⟩
  obtain ⟨before, found, listed⟩ := wired member
  obtain ⟨after, found', listed'⟩ := wired there
  obtain ⟨object, made, -⟩ := Option.map_eq_some_iff.mp found
  have numbered := reaches.numbered first found
  -- New connections have numbers from the next one on, which is past that of this one.
  let P (wires : Wires) : Prop := c.id < wires.next ∧ ∀ d ∈ wires.connections, d.id = c.id → d = c
  refine (later.keeps_wires (P := P) ?_ ?_ (.inl (World.lt_next_of_object? made)) ?_ after found').2
    d listed' same
  · rintro wires signal receiver ⟨given, only⟩
    refine ⟨Nat.lt_succ_of_lt given, fun d member same => ?_⟩
    rcases List.mem_append.mp member with old | new
    · exact only d old same
    · obtain rfl := List.mem_singleton.mp new
      exact absurd given (Nat.not_lt.mpr (Nat.le_of_eq same))
  · exact fun wires keep ⟨given, only⟩ =>
      ⟨given, fun d member => only d (List.mem_filter.mp member).1⟩
  · intro wires again
    cases found.symm.trans again
    refine ⟨numbered.given c listed, fun d member same => ?_⟩
    exact List.inj_on_of_nodup_map (numbered.increasing.imp Nat.ne_of_lt) member listed same

theorem Class.findSignal_eq_ok_iff {c : Class} {name : String} {m : Member} :
    c.findSignal name = .ok m ↔ c.signal? name = some m := by
  unfold findSignal
  cases c.signal? name <;> simp

theorem Class.findSlot_eq_ok_iff {c : Class} {name : String} {m : Member} :
    c.findSlot name = .ok m ↔ c.slot? name = some m := by
  unfold findSlot
  cases c.slot? name <;> simp

namespace Host

variable {w w' v v' : World} {o target : ObjectId} {name slotName : String} {signal slot : Member}
  {result : Except Fault Nat}

/-- Both names stand for something, or nothing is connected. -/
theorem resolved_of_connectSlot (ends : Ends (connectSlot o name target slotName) w result w') :
    ((∃ e, result = .error e) ∧ w' = w) ∨ ∃ signal slot,
      (w.classOf o).signal? name = some signal ∧ (w.classOf target).slot? slotName = some slot := by
  unfold connectSlot at ends
  rw [Ends.find_bind_iff] at ends
  split at ends
  · rename_i signal known
    rw [Ends.find_bind_iff] at ends
    split at ends
    · rename_i slot found
      exact .inr ⟨signal, slot, Class.findSignal_eq_ok_iff.mp known,
        Class.findSlot_eq_ok_iff.mp found⟩
    · exact .inl ⟨⟨_, ends.1⟩, ends.2⟩
  · exact .inl ⟨⟨_, ends.1⟩, ends.2⟩

/-- A slot that does not take the first parameters of a signal is refused, and any other failure is
of another kind; what fails changes nothing. -/
theorem ends_connectSlot (known : (w.classOf o).signal? name = some signal)
    (found : (w.classOf target).slot? slotName = some slot)
    (ends : Ends (connectSlot o name target slotName) w result w') :
    (¬ Signature.Begins slot.params signal.params ∧ w' = w ∧
      ∃ e, result = .error (.failed e) ∧ e.kind = .signatureMismatch) ∨
    Signature.Begins slot.params signal.params ∧
      ((w' = w ∧ ∃ e, result = .error (.failed e) ∧ e.kind ≠ .signatureMismatch) ∨
        ∃ body object, slot.body = some body ∧ w.object? o = some object ∧
          result = .ok (w.nextConnection o) ∧
          w' = (w.connect o signal.text (.slot target slot.text body slot.params.length)).2) := by
  have destroyed {i : ObjectId} {e : BridgeError} (dead : w.ensureAlive i = .error e) :
      e.kind ≠ .signatureMismatch := by
    unfold World.ensureAlive at dead
    split at dead
    · cases dead
      simp [BridgeError.destroyed]
    · cases dead
  unfold connectSlot at ends
  rw [Ends.find_bind_iff, Class.findSignal_eq_ok_iff.mpr known] at ends
  dsimp only at ends
  rw [Ends.find_bind_iff, Class.findSlot_eq_ok_iff.mpr found] at ends
  dsimp only at ends
  cases fits : Signature.compatible signal.params slot.params with
  | false =>
    rw [fits] at ends
    obtain ⟨rfl, rfl⟩ := Ends.throw_iff.mp ends
    exact .inl ⟨by simp [← Signature.compatible_iff, fits], rfl, _, rfl, rfl⟩
  | true =>
    rw [fits, if_neg (by simp)] at ends
    refine .inr ⟨Signature.compatible_iff.mp fits, ?_⟩
    split at ends
    · obtain ⟨rfl, rfl⟩ := Ends.throw_iff.mp ends
      exact .inl ⟨rfl, _, rfl, by simp [BridgeError.notCallable]⟩
    · rename_i body calls
      rw [Ends.find_bind_iff] at ends
      split at ends
      · rename_i alive
        rw [Ends.find_bind_iff] at ends
        split at ends
        · obtain ⟨rfl, rfl⟩ := Ends.perform_iff.mp ends
          obtain ⟨object, there, -⟩ := World.object_of_alive (World.ensureAlive_iff.mp alive)
          refine .inr ⟨body, object, calls, there, ?_, rfl⟩
          simp [Op.apply, World.connect, World.nextConnection, World.wires?, HostObject.wires,
            there]
        · rename_i dead
          exact .inl ⟨ends.2, _, ends.1, destroyed dead⟩
      · rename_i dead
        exact .inl ⟨ends.2, _, ends.1, destroyed dead⟩

/-- Whether a connection joins a signal and a slot that their names have been found to stand for. -/
def Joined (w : World) (target o : ObjectId) (c : Connection) : Prop :=
  ∃ name slotName signal slot, (w.classOf o).signal? name = some signal ∧
    (w.classOf target).slot? slotName = some slot ∧ c.Joins signal slot target

/-- From a world on, classes have stayed as they were, and what has been connected joins signals to
slots of an object. -/
structure Joining (w : World) (target : ObjectId) (v : World) : Prop where
  classes : ∀ i, v.classOf i = w.classOf i
  adds : w.Adds v (Joined w target)

theorem Joining.refl (w : World) (target : ObjectId) : Joining w target w :=
  ⟨fun _ => rfl, .refl w _⟩

theorem Joining.connectSlot (joining : Joining w target v)
    (ends : Ends (connectSlot o name target slotName) v result v') : Joining w target v' := by
  have classes := joining.classes
  rcases resolved_of_connectSlot ends with ⟨-, rfl⟩ | ⟨signal, slot, known, found⟩
  · exact joining
  · rcases ends_connectSlot known found ends with ⟨-, rfl, -⟩ |
      ⟨begins, ⟨rfl, -⟩ | ⟨body, object, calls, there, -, rfl⟩⟩
    · exact joining
    · exact joining
    · refine ⟨fun i => (World.classOf_connect ..).trans (classes i), joining.adds.connect there ?_⟩
      rw [classes] at known found
      exact ⟨name, slotName, signal, slot, known, found, rfl, begins, body, calls, rfl⟩

/-- All connections that are made by name join signals to slots. -/
theorem Joining.connectByName {result : Except Fault Nat} (joining : Joining w target v)
    (ends : Ends (connectByName target) v result v') : Joining w target v' := by
  unfold Host.connectByName at ends
  rw [Ends.find_bind_iff] at ends
  split at ends
  · rw [Ends.view_bind_iff, Ends.view_bind_iff] at ends
    obtain ⟨inner, connecting, -⟩ := Ends.map_iff.mp
      (show Ends ((fun made : List Nat => made.foldl (· + ·) 0) <$> _) v result v' from ends)
    refine connecting.keeps_mapM (fun slot u inner u' joining ends => ?_) joining
    rw [Ends.view_bind_iff] at ends
    split at ends
    · rcases Ends.bind_iff.mp ends with ⟨_, u₁, connecting, done⟩ | ⟨e, -, connecting⟩
      · obtain ⟨_, connecting, -⟩ := Ends.discard_iff.mp connecting
        rw [(Ends.pure_iff.mp done).2]
        exact joining.connectSlot connecting
      · obtain ⟨_, connecting, -⟩ := Ends.discard_iff.mp connecting
        exact joining.connectSlot connecting
    · exact (Ends.pure_iff.mp ends).2 ▸ joining
  · exact ends.2 ▸ joining

end Host

/-- A slot of an object is called with arguments: what is seen of that, and what comes of it. -/
def Member.Called (slot : Member) (target : ObjectId) (given : List HostValue) (w : World)
    (during : List Moment) (outcome : Except BridgeError Unit) (w' : World) : Prop :=
  ∃ body result, slot.body = some body ∧
    Runs (body.run target slot.text given) w during (some result) w' ∧
    outcome.mapError .failed = result.map fun _ => ()

/-- A receiver is asked. A slot of an object that is alive, to which the signal has been joined, is
called with the first arguments: one for each of its parameters, of the type of that. -/
def Invoked (o : ObjectId) (args : List HostValue) : Handover := fun c w during outcome w' =>
  Asked o args c w during outcome w' ∧
    ∀ signal slot target, c.Joins signal slot target → w.isDestroyed target = false →
      ∃ given inner v, given <+: args ∧ given.length = slot.params.length ∧
        Suits slot.params given ∧ slot.Called target given w.openScope inner outcome v ∧
        during = .request (.deliver c o args) w.openScope ::
          .op (.view (·.isDestroyed target)) w.openScope :: inner ∧
        w' = v.closeScope []

/-- Members with one text have the same parameters. -/
theorem Member.params_of_text {a b : Member} (same : a.text = b.text) : a.params = b.params :=
  congrArg Signature.params (Signature.text_inj same)

section Emissions

variable {o : ObjectId} {args : List HostValue} {w w' : World} {during : List Moment}

/-- A signal with arguments of its types calls the slots to which it has been joined as they
declare. -/
theorem Asked.invoked {c : Connection} {m : Member} {outcome : Except BridgeError Unit}
    (typed : args.map HostValue.type = m.params) (named : c.signal = m.text)
    (asked : Asked o args c w during outcome w') : Invoked o args c w during outcome w' := by
  refine ⟨asked, fun signal slot target joins alive => ?_⟩
  obtain ⟨inner, v, rfl, delivering, rfl⟩ := asked
  obtain ⟨body, declared, receiver⟩ := joins.calls
  -- The signal that was joined has the text of the one that is emitted, and so its parameters.
  have begins := joins.begins
  rw [Member.params_of_text (joins.named.symm.trans named), ← typed] at begins
  have suits := begins.suits
  unfold Connection.deliver at delivering
  rw [receiver] at delivering
  obtain ⟨later, rfl, calling⟩ := delivering.of_perform
  rw [show (Op.apply (.view (·.isDestroyed target)) w.openScope).1 = false from alive] at calling
  obtain ⟨result, called, same⟩ := calling.inside_discard
  exact ⟨_, later, v, List.take_prefix _ _, suits.length_eq.symm, suits,
    ⟨body, result, declared, called, same⟩, rfl, rfl⟩

theorem Deliveries.mono {hands hands' : Handover}
    {outcomes : List (Connection × Except BridgeError Unit)}
    (each : ∀ c ∈ outcomes.map Prod.fst, ∀ w during outcome w', hands c w during outcome w' →
      hands' c w during outcome w')
    (deliveries : Deliveries hands w outcomes during w') :
    Deliveries hands' w outcomes during w' := by
  induction deliveries with
  | nil => exact .nil _
  | cons first _ ih =>
    rw [List.map_cons, List.forall_mem_cons] at each
    exact .cons (each.1 _ _ _ _ first) (ih each.2)

/-- What has been handed a signal has been called with arguments of its own. -/
theorem Deliveries.invoked {m : Member} {outcomes : List (Connection × Except BridgeError Unit)}
    {v : World} (typed : args.map HostValue.type = m.params)
    (receivers : ∀ c ∈ outcomes.map Prod.fst, c ∈ v.connectionsOf o m.text)
    (deliveries : Deliveries (Asked o args) w outcomes during w') :
    Deliveries (Invoked o args) w outcomes during w' := by
  refine deliveries.mono fun c member _ _ _ _ asked => asked.invoked typed ?_
  have connected := receivers c member
  rw [World.connectionsOf_eq] at connected
  simpa using (List.mem_filter.mp connected).2

end Emissions

namespace Native

/-- The arguments of a call of a method, without the object itself in front of them. -/
def givenArgs (w : World) (o : ObjectId) (args : List Value) : List Value :=
  if (args.head?.bind w.hostObject?) == some o then args.drop 1 else args

/-- A signal that a script calls is emitted with arguments of its types, unless one of them cannot
be converted. -/
theorem ends_callMember {w w' : World} {s : StateId} {o : ObjectId} {name : String}
    {args : List Value} {m : Member} {result : Except Fault (List Value)}
    (alive : w.isDestroyed o = false)
    (selected : selectOverload w Member.params ((w.classOf o).membersNamed name)
      (givenArgs w o args) = some m)
    (signal : m.kind = .signal) (ends : Ends (callMember s o name args) w result w') :
    (∃ e, result = .error e ∧ Ends (marshalArgs m.params (givenArgs w o args)) w (.error e) w') ∨
      ∃ hosts v sent, Ends (marshalArgs m.params (givenArgs w o args)) w (.ok hosts) v ∧
        hosts.map HostValue.type = m.params ∧ Ends (emitSignal o m.text hosts) v sent w' ∧
        result = sent.map fun _ => [] := by
  unfold callMember at ends
  rw [Ends.view_bind_iff, Ends.find_bind_iff, World.ensureAlive_iff.mpr alive] at ends
  dsimp only at ends
  rw [Ends.view_bind_iff] at ends
  change Ends (Action.view (selectOverload · Member.params ((w.classOf o).membersNamed name)
    (givenArgs w o args)) >>= _) w result w' at ends
  rw [Ends.view_bind_iff, selected] at ends
  dsimp only at ends
  rcases Ends.bind_iff.mp ends with ⟨hosts, v, marshalled, going⟩ | failed
  · rw [if_pos signal] at going
    have typed := types_of_marshalArgs (arity_of_selectOverload selected) marshalled
    refine .inr ⟨hosts, v, ?_⟩
    rcases Ends.bind_iff.mp going with ⟨_, u, sent, done⟩ | ⟨e, rfl, sent⟩
    · obtain ⟨rfl, rfl⟩ := Ends.pure_iff.mp done
      exact ⟨_, marshalled, typed, sent, rfl⟩
    · exact ⟨_, marshalled, typed, sent, rfl⟩
  · exact .inl failed

end Native

/-- To connect a signal to a slot fails with a mismatch exactly if the slot does not take the first
parameters of the signal. What is connected, one by one or by names, joins a signal to a slot that
does, and its number stands for it as long as it is there. An emission with arguments of the signal's
types calls the slots of live objects that are joined to it with the first arguments, as they
declare; a script that calls a signal emits it with such arguments. -/
theorem Reaches.slot_law {moments : List Moment} {w : World} (reaches : Reaches moments w) :
    (∀ o name target slotName result w',
      Ends (Host.connectSlot o name target slotName) w result w' →
      (∀ signal slot, (w.classOf o).signal? name = some signal →
        (w.classOf target).slot? slotName = some slot →
        ((∃ e, result = .error (.failed e) ∧ e.kind = .signatureMismatch) ↔
          ¬ Signature.Begins slot.params signal.params)) ∧
      ∀ id, result = .ok id → ∃ c signal slot, (w.classOf o).signal? name = some signal ∧
        (w.classOf target).slot? slotName = some slot ∧
        w'.connections o = w.connections o ++ [c] ∧ c.id = id ∧ c.Joins signal slot target ∧
        ∀ v, w'.Later v → ∀ d ∈ v.connections o, d.id = c.id → d = c) ∧
    (∀ target result w', Ends (Host.connectByName target) w result w' → ∀ o, ∃ added,
      w'.connections o = w.connections o ++ added ∧ ∀ c ∈ added, Host.Joined w target o c ∧
        ∀ v, w'.Later v → ∀ d ∈ v.connections o, d.id = c.id → d = c) ∧
    (∀ o (m : Member) args during outcome w', args.map HostValue.type = m.params →
      Runs (emitSignal o m.text args) w during outcome w' →
      (∀ result, outcome = some result → result ≠ .error .exhausted → ∃ outcomes later,
        during = .op (.view (·.connectionsOf o m.text)) w :: later ∧
        Emission (Invoked o args) o m.text w outcomes later result w') ∧
      (during = [] ∨ ∃ outcomes left first now v,
        outcomes.map Prod.fst ++ left = w.connectionsOf o m.text ∧
        during = .op (.view (·.connectionsOf o m.text)) w :: (first ++ now) ∧
        Deliveries (Invoked o args) w outcomes first v ∧
        (now = [] ∨ ∃ c rest inner, left = c :: rest ∧
          now = .request (.deliver c o args) v.openScope :: inner))) ∧
    ∀ s o name args m result w', w.isDestroyed o = false →
      selectOverload w Member.params ((w.classOf o).membersNamed name)
        (Native.givenArgs w o args) = some m → m.kind = .signal →
      Ends (Native.callMember s o name args) w result w' →
      (∃ e, result = .error e ∧
        Ends (marshalArgs m.params (Native.givenArgs w o args)) w (.error e) w') ∨
        ∃ hosts v sent, Ends (marshalArgs m.params (Native.givenArgs w o args)) w (.ok hosts) v ∧
          hosts.map HostValue.type = m.params ∧ Ends (emitSignal o m.text hosts) v sent w' ∧
          result = sent.map fun _ => [] := by
  have arrives {α : Type} {a : Action α} {result : Except Fault α} {w' : World} (safe : a.Safe)
      (ends : Ends a w result w') : w.Later w' := by
    obtain ⟨during, runs⟩ := ends
    exact ((safe w reaches.sound).passage reaches.sound runs).1.arrives
  refine ⟨fun o name target slotName result w' ends => ⟨fun signal slot known found => ?_, ?_⟩,
    fun target result w' ends o => ?_,
    fun o m args during outcome w' typed runs => ⟨?_, ?_⟩,
    fun s o name args m result w' alive selected signal ends =>
      Native.ends_callMember alive selected signal ends⟩
  · rcases Host.ends_connectSlot known found ends with ⟨apart, -, e, rfl, kind⟩ |
      ⟨begins, ⟨-, e, rfl, kind⟩ | ⟨body, object, -, -, rfl, -⟩⟩
    · exact iff_of_true ⟨e, rfl, kind⟩ apart
    · refine iff_of_false ?_ (not_not.mpr begins)
      rintro ⟨e', ⟨⟩, same⟩
      exact kind same
    · exact iff_of_false (by simp) (not_not.mpr begins)
  · rintro id rfl
    rcases Host.resolved_of_connectSlot ends with ⟨⟨e, none⟩, -⟩ | ⟨signal, slot, known, found⟩
    · cases none
    · rcases Host.ends_connectSlot known found ends with ⟨-, -, e, none, -⟩ |
        ⟨begins, ⟨-, e, none, -⟩ | ⟨body, object, calls, there, number, rfl⟩⟩
      · cases none
      · cases none
      · cases number
        have listed := World.connections_connect there signal.text
          (.slot target slot.text body slot.params.length) o
        rw [if_pos rfl] at listed
        refine ⟨_, signal, slot, known, found, listed, rfl, ⟨rfl, begins, body, calls, rfl⟩, ?_⟩
        intro v later d member same
        exact reaches.same_connection (arrives (Host.safe_connectSlot o name target slotName) ends)
          later (by simp [listed]) member same
  · have joining := Host.Joining.connectByName (.refl w target) ends
    obtain ⟨added, listed, joined⟩ := joining.adds o
    refine ⟨added, listed, fun c member => ⟨joined c member, fun v later d there same => ?_⟩⟩
    exact reaches.same_connection (arrives (Host.safe_connectByName target) ends) later
      (by simp [listed, member]) there same
  · rintro result rfl mild
    obtain ⟨outcomes, later, first, receivers, deliveries, returned⟩ :=
      (runs_emitSignal mild).mp runs
    exact ⟨outcomes, later, first, receivers,
      deliveries.invoked typed fun c member => receivers ▸ member, returned⟩
  · refine runs.partly_emitted.imp_right ?_
    rintro ⟨outcomes, left, first, now, v, split, rfl, deliveries, asked⟩
    refine ⟨outcomes, left, first, now, v, split, rfl, ?_, asked⟩
    exact deliveries.invoked typed fun c member => split ▸ List.mem_append_left left member

/-- An object has a child that is named as one of its slots says, and whose signal is connected to
another of its slots. -/
def patched : List Step := [
  ⟨.newObject Samples.sink "sink", ["sink"]⟩, ⟨.newObject Samples.myObject "source", ["source"]⟩,
  ⟨.setParent 1 (some 0), []⟩, ⟨.connectSlot 1 "valueChanged" 0 "any", []⟩]

theorem slot_law_patched :
    (∃ e, ((Host.connectSlot 1 "valueChanged" 0 "rename").run (Step.play {} patched)).1 =
      .error (.failed e) ∧ e.kind = .signatureMismatch) ∧
    (∃ c signal slot, ((Host.connectSlot 1 "valueChanged" 0 "ping").run
        (Step.play {} patched)).2.connections 1 = (Step.play {} patched).connections 1 ++ [c] ∧
      c.Joins signal slot 0 ∧ signal.params = [.int] ∧ slot.params = []) ∧
    (∃ added, ((Host.connectByName 0).run (Step.play {} patched)).2.connections 1 =
      (Step.play {} patched).connections 1 ++ added ∧ added.map (·.id) = [1] ∧
      ∀ c ∈ added, Host.Joined (Step.play {} patched) 0 1 c) ∧
    (∃ outcomes later w', Emission (Invoked 1 [.int 5]) 1 "valueChanged(int)" (Step.play {} patched)
      outcomes later (.ok ()) w' ∧ outcomes.map (·.1.id) = [0] ∧ w'.log.length = 1) ∧
    ∃ m hosts v sent w', Member.text m = "valueChanged(int)" ∧
      hosts.map HostValue.type = m.params ∧ Ends (emitSignal 1 m.text hosts) v sent w' := by
  obtain ⟨moments, session⟩ := Session.start.play patched
  obtain ⟨connecting, naming, emitting, calling⟩ := (Reaches.of_session session).slot_law
  obtain ⟨named, renames, pings⟩ :
      (((Step.play {} patched).classOf 1).signal? "valueChanged").map (·.signature) =
        some ⟨"valueChanged", [.int]⟩ ∧
      (((Step.play {} patched).classOf 0).slot? "rename").map (·.params) = some [.string] ∧
      (((Step.play {} patched).classOf 0).slot? "ping").map (·.params) = some [] := by
    decide +kernel
  obtain ⟨signal, known, signature⟩ := Option.map_eq_some_iff.mp named
  obtain ⟨rename, found, takes⟩ := Option.map_eq_some_iff.mp renames
  obtain ⟨ping, there, none⟩ := Option.map_eq_some_iff.mp pings
  have params : signal.params = [.int] := congrArg Signature.params signature
  have text : signal.text = "valueChanged(int)" := by
    rw [Member.text, signature]
    decide
  refine ⟨?_, ?_, ?_, ?_, ?_⟩
  · refine ((connecting 1 "valueChanged" 0 "rename" _ _ (.of_run _ _)).1 signal rename known
      found).mpr ?_
    rw [takes, params, ← Signature.compatible_iff]
    decide
  · have connected : ((Host.connectSlot 1 "valueChanged" 0 "ping").run (Step.play {} patched)).1 =
        .ok 1 := by
      decide +kernel
    obtain ⟨c, m, slot, isSignal, isSlot, listed, -, joins, -⟩ :=
      (connecting 1 "valueChanged" 0 "ping" _ _ (.of_run _ _)).2 1 connected
    cases known.symm.trans isSignal
    cases there.symm.trans isSlot
    exact ⟨c, signal, ping, listed, joins, params, none⟩
  · obtain ⟨numbers, before⟩ :
        (((Host.connectByName 0).run (Step.play {} patched)).2.connections 1).map (·.id) = [0, 1] ∧
        ((Step.play {} patched).connections 1).map (·.id) = [0] := by
      decide +kernel
    obtain ⟨added, listed, joined⟩ := naming 0 _ _ (.of_run _ _) 1
    rw [listed, List.map_append, before] at numbers
    exact ⟨added, listed, by simpa using numbers, fun c member => (joined c member).1⟩
  · obtain ⟨done, noted, receivers⟩ :
        ((emitSignal 1 "valueChanged(int)" [.int 5]).run (Step.play {} patched)).1 = .ok () ∧
        ((emitSignal 1 "valueChanged(int)" [.int 5]).run (Step.play {} patched)).2.log.length = 1 ∧
        ((Step.play {} patched).connectionsOf 1 "valueChanged(int)").map (·.id) = [0] := by
      decide +kernel
    obtain ⟨during, runs⟩ :=
      (emitSignal 1 "valueChanged(int)" [.int 5]).runs_of_run (Step.play {} patched)
    rw [done, ← text] at runs
    obtain ⟨outcomes, later, -, emission⟩ :=
      (emitting 1 signal [.int 5] _ _ _ params.symm runs).1 _ rfl (by simp)
    rw [text] at emission
    refine ⟨outcomes, later, _, emission, ?_, noted⟩
    rw [← receivers, ← emission.receivers, List.map_map]
    rfl
  · obtain ⟨alive, selects, done⟩ : (Step.play {} patched).isDestroyed 1 = false ∧
        (selectOverload (Step.play {} patched) Member.params
          (((Step.play {} patched).classOf 1).membersNamed "valueChanged")
          (Native.givenArgs (Step.play {} patched) 1 [.int 5])).map
            (fun m => (m.text, m.kind)) = some ("valueChanged(int)", .signal) ∧
        ((Native.callMember 0 1 "valueChanged" [.int 5]).run (Step.play {} patched)).1 =
          .ok [] := by
      decide +kernel
    obtain ⟨m, selected, same⟩ := Option.map_eq_some_iff.mp selects
    obtain ⟨text, kind⟩ := Prod.mk.inj same
    rcases calling 0 1 "valueChanged" [.int 5] m _ _ alive selected kind (.of_run _ _) with
      ⟨e, failed, -⟩ | ⟨hosts, v, sent, -, typed, emitted, -⟩
    · rw [done] at failed
      cases failed
    · exact ⟨m, hosts, v, sent, _, text, typed, emitted⟩

end ScriptBridge
