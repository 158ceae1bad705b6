import ScriptBridge.Host.Samples
import ScriptBridge.Proofs.Computed
import ScriptBridge.Proofs.Destruction

/-!
What an emission does: the receivers that are connected when it begins are handed the signal, each
once and in the order of connection, whatever they do to the connections in the meantime.
-/

namespace ScriptBridge

/-- A receiver is handed a signal in a world: what is seen of that, what comes of it, and the world
afterwards. -/
abbrev Handover :=
  Connection → World → List Moment → Except BridgeError Unit → World → Prop

/-- Receivers are handed a signal one after another, each in the world that the one before it has
left. -/
inductive Deliveries (hands : Handover) :
    World → List (Connection × Except BridgeError Unit) → List Moment → World → Prop where
  | nil (w : World) : Deliveries hands w [] [] w
  | cons {w w₁ w' : World} {c : Connection} {outcome : Except BridgeError Unit}
      {outcomes : List (Connection × Except BridgeError Unit)} {during later : List Moment}
      (first : hands c w during outcome w₁) (rest : Deliveries hands w₁ outcomes later w') :
    Deliveries hands w ((c, outcome) :: outcomes) (during ++ later) w'

/-- The first failure there is. -/
def firstFailure : List (Except BridgeError Unit) → Except BridgeError Unit
  | [] => .ok ()
  | .ok () :: rest => firstFailure rest
  | .error e :: _ => .error e

/-- All that were connected to a signal of an object have been handed it, in the order in which they
stood, and no one else. The first failure in that order is the result. -/
structure Emission (hands : Handover) (o : ObjectId) (signal : String) (w : World)
    (outcomes : List (Connection × Except BridgeError Unit)) (during : List Moment)
    (result : Except Fault Unit) (w' : World) : Prop where
  receivers : outcomes.map Prod.fst = w.connectionsOf o signal
  deliveries : Deliveries hands w outcomes during w'
  result : result = (firstFailure (outcomes.map Prod.snd)).mapError .failed

section

variable {o : ObjectId} {args : List HostValue}

/-- A receiver is asked, and then anything happens that it may do. -/
def Asked (o : ObjectId) (args : List HostValue) : Handover := fun c w during outcome w' =>
  ∃ inner w₁, during = .request (.deliver c o args) w.openScope :: inner ∧
    Runs (c.deliver o args) w.openScope inner (some (outcome.mapError .failed)) w₁ ∧
    w' = w₁.closeScope []

/-- A receiver is asked, and does to the world whatever a function says. -/
def Answered (carryOut : {β : Type} → Request β → World → Except Fault β × World) (o : ObjectId)
    (args : List HostValue) : Handover := fun c w during outcome w' =>
  during = [.request (.deliver c o args) w.openScope] ∧ ∃ w₁,
    carryOut (.deliver c o args) w.openScope = (outcome.mapError .failed, w₁) ∧
    w' = w₁.closeScope []

/-- What an emission does for one receiver. -/
def handOver (o : ObjectId) (args : List HostValue) (c : Connection) :
    Action (Except BridgeError Unit) :=
  .attempt (.ask (.deliver c o args))

theorem Fault.caught_mapError (outcome : Except BridgeError Unit) :
    Fault.caught (outcome.mapError .failed) = .ok outcome := by
  cases outcome <;> rfl

/-- What has been caught is a failure that can be, or none. -/
theorem Fault.eq_mapError_of_caught {ended : Except Fault α} {outcome : Except BridgeError α}
    (caught : .ok outcome = Fault.caught ended) : ended = outcome.mapError .failed := by
  rcases ended with (e | _) | x <;> cases caught <;> rfl

theorem handOver_iff {c : Connection} {w w' : World} {during : List Moment}
    {outcome : Except BridgeError Unit} :
    Runs (handOver o args c) w during (some (.ok outcome)) w' ↔
      Asked o args c w during outcome w' := by
  constructor
  · intro runs
    obtain ⟨ended, w₁, asking, caught, rfl⟩ := runs.of_attempt
    obtain rfl := Fault.eq_mapError_of_caught caught
    obtain ⟨inner, rfl, delivering⟩ := asking.of_deliver (Fault.ne_exhausted_of_caught caught)
    refine ⟨inner, w₁, rfl, delivering, ?_⟩
    cases outcome <;> rfl
  · rintro ⟨inner, w₁, rfl, delivering, rfl⟩
    have asking : Runs (.ask (.deliver c o args)) w.openScope
        (.request (.deliver c o args) w.openScope :: inner)
        (some (outcome.mapError .failed)) w₁ := by
      cases outcome with
      | error e => exact .requestFailed (.program _ _) delivering
      | ok =>
        rw [← List.append_nil inner]
        exact .requestDone (.program _ _) delivering (.pure () w₁)
    rw [← List.append_nil (_ :: inner)]
    cases outcome <;> exact .scopeDone asking (.pure _ _)

/-- Where a delivery has got to before it ends: nothing has been asked, or the receiver has. -/
theorem handOver_unended {c : Connection} {w w' : World} {during : List Moment}
    {outcome : Option (Except Fault (Except BridgeError Unit))}
    (runs : Runs (handOver o args c) w during outcome w') :
    during = [] ∨ ∃ inner, during = .request (.deliver c o args) w.openScope :: inner := by
  have asks {outcome : Option (Except Fault Unit)} {w' : World}
      (runs : Runs (.ask (.deliver c o args)) w.openScope during outcome w') :
      during = [] ∨ ∃ inner, during = .request (.deliver c o args) w.openScope :: inner := by
    cases runs with
    | stop => exact .inl rfl
    | requestStopped | requestFailed | requestDone => exact .inr ⟨_, rfl⟩
  cases runs with
  | stop => exact .inl rfl
  | scopeStopped inner => exact asks inner
  | @scopeDone _ _ _ _ _ _ _ w₁ _ first later result _ inner rest =>
    obtain rfl : later = [] := by
      rcases result with (e | _) | x <;> cases rest <;> rfl
    rw [List.append_nil] at asks ⊢
    exact asks inner

theorem handOver_each {cs : List Connection} {w w' : World} {during : List Moment}
    {results : List (Except BridgeError Unit)} :
    Runs (cs.mapM (handOver o args)) w during (some (.ok results)) w' ↔ ∃ outcomes,
      outcomes.map Prod.fst = cs ∧ outcomes.map Prod.snd = results ∧
      Deliveries (Asked o args) w outcomes during w' := by
  induction cs generalizing w during results with
  | nil =>
    rw [List.mapM_nil]
    constructor
    · intro runs
      obtain ⟨rfl, same, rfl⟩ := runs.of_pure
      cases same
      exact ⟨[], rfl, rfl, .nil w'⟩
    · rintro ⟨outcomes, none, rfl, deliveries⟩
      obtain rfl := List.map_eq_nil_iff.mp none
      cases deliveries
      exact .pure [] _
  | cons c rest ih =>
    rw [List.mapM_cons]
    constructor
    · intro runs
      obtain ⟨outcome, w₁, first, later, rfl, here, going⟩ := runs.of_bind
      obtain ⟨others, w₂, second, last, rfl, there, done⟩ := going.of_bind
      obtain ⟨rfl, same, rfl⟩ := done.of_pure
      cases same
      obtain ⟨outcomes, receivers, rfl, deliveries⟩ := ih.mp there
      refine ⟨(c, outcome) :: outcomes, by simp [receivers], rfl, ?_⟩
      rw [List.append_nil]
      exact .cons (handOver_iff.mp here) deliveries
    · rintro ⟨outcomes, receivers, rfl, deliveries⟩
      cases deliveries with
      | nil => cases receivers
      | @cons _ w₁ _ c' outcome outcomes first later here there =>
        obtain ⟨rfl, others⟩ := List.cons.inj receivers
        have going := ih.mpr ⟨outcomes, others, rfl, there⟩
        refine (handOver_iff.mpr here).sequence ?_
        simpa using going.sequence (f := fun rest => pure (outcome :: rest)) (.pure _ _)

/-- Wherever one looks, the receivers at the head of the list have had their turn, and at most the
one after them has been asked. -/
theorem handOver_partly {cs : List Connection} {w w' : World} {during : List Moment}
    {outcome : Option (Except Fault (List (Except BridgeError Unit)))}
    (runs : Runs (cs.mapM (handOver o args)) w during outcome w') :
    ∃ outcomes left first now v, outcomes.map Prod.fst ++ left = cs ∧
      Deliveries (Asked o args) w outcomes first v ∧ during = first ++ now ∧
      (now = [] ∨ ∃ c rest inner, left = c :: rest ∧
        now = .request (.deliver c o args) v.openScope :: inner) := by
  induction cs generalizing w w' during outcome with
  | nil =>
    rw [List.mapM_nil] at runs
    refine ⟨[], [], [], during, w, rfl, .nil w, rfl, .inl ?_⟩
    change Runs (.pure _) w during outcome w' at runs
    cases runs <;> rfl
  | cons c rest ih =>
    rw [List.mapM_cons] at runs
    have unended {outcome : Option (Except Fault (Except BridgeError Unit))} {w' : World}
        (here : Runs (handOver o args c) w during outcome w') :
        ∃ outcomes left first now v, outcomes.map Prod.fst ++ left = c :: rest ∧
          Deliveries (Asked o args) w outcomes first v ∧ during = first ++ now ∧
          (now = [] ∨ ∃ c rest inner, left = c :: rest ∧
            now = .request (.deliver c o args) v.openScope :: inner) := by
      refine ⟨[], c :: rest, [], during, w, rfl, .nil w, rfl, ?_⟩
      exact (handOver_unended here).imp_right fun ⟨inner, asked⟩ => ⟨c, rest, inner, rfl, asked⟩
    rcases runs.of_sequence with ⟨result, w₁, first, later, rfl, here, going⟩ | ⟨-, here⟩ |
      ⟨e, -, here⟩
    · have there : ∃ outcome w₂, Runs (rest.mapM (handOver o args)) w₁ later outcome w₂ := by
        rcases going.of_sequence with ⟨_, w₂, before, after, rfl, there, done⟩ | ⟨-, there⟩ |
          ⟨e, -, there⟩
        · obtain rfl : after = [] := by
            change Runs (.pure _) w₂ after outcome w' at done
            cases done <;> rfl
          exact ⟨_, _, by simpa using there⟩
        · exact ⟨_, _, there⟩
        · exact ⟨_, _, there⟩
      obtain ⟨_, _, there⟩ := there
      obtain ⟨outcomes, left, before, now, v, split, deliveries, rfl, now'⟩ := ih there
      refine ⟨(c, result) :: outcomes, left, first ++ before, now, v, by simp [split], ?_, by simp,
        now'⟩
      exact .cons (handOver_iff.mp here) deliveries
    · exact unended here
    · exact unended here

variable {carryOut : {β : Type} → Request β → World → Except Fault β × World}

theorem runWith_handOver (c : Connection) (w : World) :
    (handOver o args c).runWith carryOut w =
      (Fault.caught (carryOut (.deliver c o args) w.openScope).1,
        (carryOut (.deliver c o args) w.openScope).2.closeScope []) := by
  change Action.runWith carryOut (.scope .values handles (.request (.deliver c o args) .pure) _) w = _
  simp only [Action.runWith, show Scope.values.enter w = w.openScope from rfl]
  generalize carryOut (.deliver c o args) w.openScope = answer
  obtain ⟨(e | _) | _, w₁⟩ := answer <;> rfl

theorem runWith_handOver_iff {c : Connection} {w w' : World} {outcome : Except BridgeError Unit} :
    (handOver o args c).runWith carryOut w = (.ok outcome, w') ↔
      ∃ during, Answered carryOut o args c w during outcome w' := by
  rw [runWith_handOver]
  constructor
  · intro same
    obtain ⟨caught, rfl⟩ := Prod.mk.inj same
    exact ⟨_, rfl, _, Prod.ext (Fault.eq_mapError_of_caught caught.symm) rfl, rfl⟩
  · rintro ⟨_, rfl, w₁, answer, rfl⟩
    rw [show carryOut (.deliver c o args) w.openScope = _ from answer, Fault.caught_mapError]

theorem runWith_handOver_each {cs : List Connection} {w w' : World}
    {results : List (Except BridgeError Unit)} :
    (cs.mapM (handOver o args)).runWith carryOut w = (.ok results, w') ↔ ∃ outcomes during,
      outcomes.map Prod.fst = cs ∧ outcomes.map Prod.snd = results ∧
      Deliveries (Answered carryOut o args) w outcomes during w' := by
  induction cs generalizing w results with
  | nil =>
    rw [List.mapM_nil]
    constructor
    · intro same
      cases same
      exact ⟨[], [], rfl, rfl, .nil _⟩
    · rintro ⟨outcomes, during, none, rfl, deliveries⟩
      obtain rfl := List.map_eq_nil_iff.mp none
      cases deliveries
      rfl
  | cons c rest ih =>
    rw [List.mapM_cons, Action.runWith_bind]
    constructor
    · intro same
      split at same
      · rename_i outcome w₁ here
        rw [Action.runWith_bind] at same
        split at same
        · rename_i others w₂ there
          cases same
          obtain ⟨outcomes, later, receivers, rfl, deliveries⟩ := ih.mp there
          obtain ⟨first, answered⟩ := runWith_handOver_iff.mp here
          exact ⟨(c, outcome) :: outcomes, _, by simp [receivers], rfl, .cons answered deliveries⟩
        · cases same
      · cases same
    · rintro ⟨outcomes, during, receivers, rfl, deliveries⟩
      cases deliveries with
      | nil => cases receivers
      | @cons _ w₁ _ c' outcome outcomes first later here there =>
        obtain ⟨rfl, others⟩ := List.cons.inj receivers
        rw [runWith_handOver_iff.mpr ⟨_, here⟩]
        dsimp only
        rw [Action.runWith_bind, ih.mpr ⟨outcomes, later, others, rfl, there⟩]
        rfl

/-- Receivers that fail are no obstacle for the others; only exhaustion is. -/
theorem runWith_handOver_error {cs : List Connection} {w w' : World} {e : Fault}
    (failed : (cs.mapM (handOver o args)).runWith carryOut w = (.error e, w')) : e = .exhausted := by
  induction cs generalizing w with
  | nil => cases failed
  | cons c rest ih =>
    rw [List.mapM_cons, Action.runWith_bind, runWith_handOver] at failed
    generalize carryOut (.deliver c o args) w.openScope = answer at failed
    obtain ⟨(_ | _) | _, w₁⟩ := answer
    case error.exhausted =>
      cases failed
      rfl
    all_goals
      dsimp only [Fault.caught] at failed
      rw [Action.runWith_bind] at failed
      split at failed
      · cases failed
      · rename_i there
        cases failed
        exact ih there

end

/-- An emission reads the connections, hands the signal to each, and returns the first failure. -/
theorem emitSignal_eq (o : ObjectId) (signal : String) (args : List HostValue) :
    emitSignal o signal args = (do
      let receivers ← .view (·.connectionsOf o signal)
      let results ← receivers.mapM (handOver o args)
      .ofExcept (firstFailure results)) := by
  unfold emitSignal
  refine bind_congr fun receivers => bind_congr fun results => ?_
  induction results with
  | nil => rfl
  | cons result rest ih =>
    cases result with
    | error => rfl
    | ok => exact ih

theorem runs_emitSignal {o : ObjectId} {signal : String} {args : List HostValue} {w w' : World}
    {during : List Moment} {result : Except Fault Unit} (mild : result ≠ .error .exhausted) :
    Runs (emitSignal o signal args) w during (some result) w' ↔ ∃ outcomes later,
      during = .op (.view (·.connectionsOf o signal)) w :: later ∧
      Emission (Asked o args) o signal w outcomes later result w' := by
  rw [emitSignal_eq]
  constructor
  · intro runs
    obtain ⟨later, rfl, going⟩ := runs.of_perform
    rcases going.of_sequence with ⟨results, w₁, handing, last, rfl, each, returns⟩ | ⟨none, -⟩ |
      ⟨e, same, failed⟩
    · obtain ⟨outcomes, receivers, rfl, deliveries⟩ := handOver_each.mp each
      obtain ⟨rfl, rfl, returned⟩ := returns.of_ofExcept
      rw [List.append_nil]
      exact ⟨outcomes, handing, rfl, receivers, deliveries, returned result rfl⟩
    · cases none
    · cases same
      exact absurd (congrArg Except.error
        (Runs.of_mapM_error (fun _ _ _ _ _ runs => runs.of_attempt_error) failed)) mild
  · rintro ⟨outcomes, later, rfl, receivers, deliveries, rfl⟩
    have each := handOver_each.mpr ⟨outcomes, receivers, rfl, deliveries⟩
    refine .op ?_
    rw [← List.append_nil later]
    refine each.sequence ?_
    cases firstFailure (outcomes.map Prod.snd) with
    | ok => exact .pure _ _
    | error e => exact .fail _ _

/-- Wherever one looks at an emission, the connections at the head of the list have had their turn, and
at most the one after them has been asked. -/
theorem Runs.partly_emitted {o : ObjectId} {signal : String} {args : List HostValue} {w w' : World}
    {during : List Moment} {outcome : Option (Except Fault Unit)}
    (runs : Runs (emitSignal o signal args) w during outcome w') : during = [] ∨
      ∃ outcomes left first now v, outcomes.map Prod.fst ++ left = w.connectionsOf o signal ∧
        during = .op (.view (·.connectionsOf o signal)) w :: (first ++ now) ∧
        Deliveries (Asked o args) w outcomes first v ∧
        (now = [] ∨ ∃ c rest inner, left = c :: rest ∧
          now = .request (.deliver c o args) v.openScope :: inner) := by
  rw [emitSignal_eq] at runs
  change Runs (.op (.view (·.connectionsOf o signal)) fun receivers =>
    receivers.mapM (handOver o args) >>= fun results => .ofExcept (firstFailure results))
    w during outcome w' at runs
  cases runs with
  | stop => exact .inl rfl
  | @op _ _ _ _ _ _ later _ rest =>
    have each : ∃ outcome w₁,
        Runs ((w.connectionsOf o signal).mapM (handOver o args)) w later outcome w₁ := by
      rcases rest.of_sequence with ⟨results, w₁, first, last, rfl, each, returns⟩ | ⟨-, each⟩ |
        ⟨e, -, each⟩
      · obtain ⟨rfl, -⟩ := returns.of_ofExcept
        exact ⟨_, w₁, (List.append_nil first).symm ▸ each⟩
      · exact ⟨_, _, each⟩
      · exact ⟨_, _, each⟩
    obtain ⟨_, _, each⟩ := each
    obtain ⟨outcomes, left, first, now, v, split, deliveries, rfl, now'⟩ := handOver_partly each
    exact .inr ⟨outcomes, left, first, now, v, split, rfl, deliveries, now'⟩

theorem runWith_emitSignal {carryOut : {β : Type} → Request β → World → Except Fault β × World}
    {o : ObjectId} {signal : String} {args : List HostValue} {w w' : World}
    {result : Except Fault Unit} (mild : result ≠ .error .exhausted) :
    (emitSignal o signal args).runWith carryOut w = (result, w') ↔ ∃ outcomes during,
      Emission (Answered carryOut o args) o signal w outcomes during result w' := by
  rw [emitSignal_eq, Action.view, Action.runWith_bind]
  change Action.runWith carryOut ((w.connectionsOf o signal).mapM (handOver o args) >>=
    fun results => .ofExcept (firstFailure results)) w = _ ↔ _
  have returned (results : List (Except BridgeError Unit)) (w₁ : World) :
      Action.runWith carryOut (.ofExcept (firstFailure results)) w₁ =
        ((firstFailure results).mapError .failed, w₁) := by
    cases firstFailure results <;> rfl
  rw [Action.runWith_bind]
  constructor
  · intro same
    split at same
    · rename_i results w₁ each
      rw [returned] at same
      cases same
      obtain ⟨outcomes, during, receivers, rfl, deliveries⟩ := runWith_handOver_each.mp each
      exact ⟨outcomes, during, receivers, deliveries, rfl⟩
    · rename_i failed
      cases same
      exact absurd (congrArg Except.error (runWith_handOver_error failed)) mild
  · rintro ⟨outcomes, during, receivers, deliveries, rfl⟩
    rw [runWith_handOver_each.mpr ⟨outcomes, during, receivers, rfl, deliveries⟩]
    exact returned _ _

namespace World

/-- The signature of a signal that may be emitted by a name, or what is wrong. -/
def emittable (w : World) (o : ObjectId) (name : String) (args : List HostValue) :
    Except BridgeError String := do
  let member ← (w.classOf o).findSignal name
  w.ensureAlive o
  if args.length ≠ member.params.length then
    .error <| .typeMismatch
      s!"signal `{member.text}` expects {member.params.length} argument(s), got {args.length}"
  else pure member.text

end World

theorem Host.emit_ends {o : ObjectId} {name : String} {args : List HostValue} {w w' : World}
    {result : Except Fault Unit} : Ends (Host.emit o name args) w result w' ↔
      match w.emittable o name args with
      | .ok text => Ends (emitSignal o text args) w result w'
      | .error e => result = .error (.failed e) ∧ w' = w := by
  unfold emit World.emittable
  rw [Ends.view_bind_iff]
  cases (w.classOf o).findSignal name with
  | error e => exact Ends.throw_iff
  | ok member =>
    change Ends (Action.view (·.ensureAlive o) >>= fun checked => Action.ofExcept checked >>= _)
      w result w' ↔ _
    rw [Ends.view_bind_iff]
    cases w.ensureAlive o with
    | error e => exact Ends.throw_iff
    | ok =>
      change Ends (if args.length ≠ member.params.length then .throw _ else _) w result w' ↔
        match (if args.length ≠ member.params.length then .error _ else .ok member.text :
          Except BridgeError String) with
        | .ok text => Ends (emitSignal o text args) w result w'
        | .error e => result = .error (.failed e) ∧ w' = w
      by_cases wrong : args.length ≠ member.params.length
      · rw [if_pos wrong, if_pos wrong]
        exact Ends.throw_iff
      · rw [if_neg wrong, if_neg wrong]

/-- An emission hands the signal to the connections that the object has for it when the emission
begins, to each once and in their order, whatever the receivers do in the meantime and whether they
fail or not; the first failure in that order is the result. Wherever one looks, connections at the
head of the list have had their turn and at most the next one has been asked. This holds of all that
receivers in a world can do, and of receivers that do anything at all to the world. A signal that is
emitted by name is checked first. -/
theorem emission_law (o : ObjectId) (signal : String) (args : List HostValue) (w : World) :
    (∀ during result w', result ≠ .error .exhausted →
      (Runs (emitSignal o signal args) w during (some result) w' ↔ ∃ outcomes later,
        during = .op (.view (·.connectionsOf o signal)) w :: later ∧
        Emission (Asked o args) o signal w outcomes later result w')) ∧
    (∀ during outcome w', Runs (emitSignal o signal args) w during outcome w' → during = [] ∨
      ∃ outcomes left first now v, outcomes.map Prod.fst ++ left = w.connectionsOf o signal ∧
        during = .op (.view (·.connectionsOf o signal)) w :: (first ++ now) ∧
        Deliveries (Asked o args) w outcomes first v ∧
        (now = [] ∨ ∃ c rest inner, left = c :: rest ∧
          now = .request (.deliver c o args) v.openScope :: inner)) ∧
    (∀ (carryOut : {β : Type} → Request β → World → Except Fault β × World) result w',
      result ≠ .error .exhausted →
      ((emitSignal o signal args).runWith carryOut w = (result, w') ↔ ∃ outcomes during,
        Emission (Answered carryOut o args) o signal w outcomes during result w')) ∧
    ∀ name result w', Ends (Host.emit o name args) w result w' ↔
      match w.emittable o name args with
      | .ok text => Ends (emitSignal o text args) w result w'
      | .error e => result = .error (.failed e) ∧ w' = w := by
  exact ⟨fun _ _ _ => runs_emitSignal, fun _ _ _ => Runs.partly_emitted,
    fun _ _ _ => runWith_emitSignal, fun _ _ _ => Host.emit_ends⟩

/-- A signal of an object is connected to a slot that fails, to one of the object itself that emits
the signal again, and to one that notes what it is given. -/
def chorus : List Step := [
  ⟨.newObject Samples.myObject "a", ["a"]⟩, ⟨.newObject Samples.sink "b", ["b"]⟩,
  ⟨.connectSlot 0 "valueChanged" 1 "broken", []⟩, ⟨.connectSlot 0 "valueChanged" 0 "setValue", []⟩,
  ⟨.connectSlot 0 "valueChanged" 1 "record", []⟩]

theorem emission_law_chorus : ∃ outcomes later w',
    Emission (Asked 0 [.int 5]) 0 "valueChanged(int)" (Step.play {} chorus) outcomes later
      (.error (.failed (.typeMismatch "sink is broken"))) w' ∧
    outcomes.map (·.1.id) = [0, 1, 2] ∧ w'.log.length = 2 := by
  obtain ⟨during, runs⟩ :=
    (emitSignal 0 "valueChanged(int)" [.int 5]).runs_of_run (Step.play {} chorus)
  obtain ⟨failed, noted, connected⟩ :
      ((emitSignal 0 "valueChanged(int)" [.int 5]).run (Step.play {} chorus)).1 =
        .error (.failed (.typeMismatch "sink is broken")) ∧
      ((emitSignal 0 "valueChanged(int)" [.int 5]).run (Step.play {} chorus)).2.log.length = 2 ∧
      ((Step.play {} chorus).connectionsOf 0 "valueChanged(int)").map (·.id) = [0, 1, 2] := by
    decide +kernel
  rw [failed] at runs
  obtain ⟨outcomes, later, -, emission⟩ :=
    ((emission_law 0 "valueChanged(int)" [.int 5] (Step.play {} chorus)).1 _ _ _ (by simp)).mp runs
  refine ⟨outcomes, later, _, emission, ?_, noted⟩
  rw [← connected, ← emission.receivers, List.map_map]
  rfl

end ScriptBridge
