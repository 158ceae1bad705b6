import ScriptBridge.Proofs.ByName

/-!
Slots that a class and its ancestors declare more than once. They are connected by their names once
for each declaration, and all of these connections call the nearest of them, so an emission calls it
as often as it has been declared.
-/

namespace ScriptBridge

/-- How often a class and its ancestors declare a slot of a signature. -/
def Class.declarations (c : Class) (text : String) : Nat :=
  (c.lineage.map fun d => d.members.countP fun m => m.kind == .slot && m.text == text).sum

theorem Class.countP_slots (c : Class) (text : String) :
    c.slots.countP (·.text == text) = c.declarations text := by
  simp only [slots, members, List.countP_filter, List.countP_flatMap, declarations,
    Function.comp_def, Bool.and_comm]

/-- How many of some connections are to a slot of an object. -/
def timesConnected (target : ObjectId) (text : String) (connections : List Connection) : Nat :=
  connections.countP (·.receiver.isFor (.slot target text))

/-- What is asked about signals and receivers of connections, and not about their numbers, can be
asked about the links. -/
theorem Link.countP_numbered (p : String → Receiver → Bool) (n : Nat) (links : List Link) :
    (numbered n links).countP (fun c => p c.signal c.receiver) =
      links.countP fun l => p l.signal l.receiver := by
  induction links generalizing n with
  | nil => rfl
  | cons l rest ih => simp only [numbered_cons, List.countP_cons, ih]

namespace World

variable {w w' : World} {target o : ObjectId} {slot : Member} {signal text : String}

/-- A signal of an object is what the slot of a name is to be connected to. -/
def Meant (w : World) (target : ObjectId) (slot : Member) (o : ObjectId) (signal : String) : Prop :=
  ∃ m : Member, w.FirstAnswer slot (w.descendants target) o m ∧ m.text = signal

theorem Meant.congr {d : Member} (same : d.signature = slot.signature)
    (meant : w.Meant target slot o signal) : w.Meant target d o signal := by
  obtain ⟨m, first, named⟩ := meant
  exact ⟨m, first.congr same, named⟩

/-- Whether what is to be connected to a slot is a signal of an object with a slot of a signature. -/
def leads (w : World) (target o : ObjectId) (signal text : String) (slot : Member) : Bool :=
  (w.linkOf target slot).any fun l =>
    l.source == o && (l.signal == signal && l.receiver.isFor (.slot target text))

variable (connectable : ∀ slot ∈ (w.classOf target).slots, slot.Connectable)
include connectable

/-- The connection that is made for a declaration is one to the nearest slot of the same signature. -/
theorem leads_iff (member : slot ∈ (w.classOf target).slots) :
    w.leads target o signal text slot = true ↔ slot.text = text ∧ w.Meant target slot o signal := by
  have plain := (connectable slot member).plain
  obtain ⟨nearest, isSlot, found, same⟩ := Class.slot?_text member plain
  have sameText : nearest.text = slot.text := congrArg Signature.text same
  simp only [leads, Option.any_eq_true, linkOf_eq_some_iff plain, Bool.and_eq_true, beq_iff_eq,
    isFor_slot_iff]
  constructor
  · rintro ⟨_, ⟨o', m, called, body, first, resolved, -, rfl⟩, rfl, rfl, _, _, receives⟩
    cases resolved.symm.trans found
    exact ⟨sameText.symm.trans (Receiver.slot.inj receives).2.1, m, first, rfl⟩
  · rintro ⟨rfl, m, first, rfl⟩
    obtain ⟨body, calls⟩ := Option.isSome_iff_exists.mp (connectable nearest isSlot).calls
    refine ⟨_, ⟨o, m, nearest, body, first, found, calls, rfl⟩, rfl, rfl, body,
      nearest.params.length, ?_⟩
    rw [sameText]

omit connectable in
/-- The connections to a slot that are made come one from each declaration that leads to it. -/
theorem timesConnected_given (alive : w.isDestroyed o = false) :
    timesConnected target text
        ((w.given (w.linksOf target) o).filter (·.signal == signal)) =
      (w.classOf target).slots.countP (w.leads target o signal text) := by
  obtain ⟨object, there, -⟩ := object_of_alive alive
  have asked := Link.countP_numbered
    (fun name receiver => receiver.isFor (.slot target text) && name == signal)
    object.nextConnection ((w.linksOf target).filter (·.source == o))
  rw [timesConnected, List.countP_filter, given_of_object there, asked, List.countP_filter, linksOf,
    List.countP_filterMap]
  refine List.countP_congr fun slot _ => ?_
  unfold leads
  cases w.linkOf target slot with
  | none => simp
  | some l => simp [Bool.and_comm]

/-- No slot is connected to a signal more often than it is declared. -/
theorem timesConnected_given_le (alive : w.isDestroyed o = false) :
    timesConnected target text
        ((w.given (w.linksOf target) o).filter (·.signal == signal)) ≤
      (w.classOf target).declarations text := by
  rw [timesConnected_given alive, ← Class.countP_slots]
  refine List.countP_mono_left fun slot member leads => ?_
  simpa using ((leads_iff connectable member).mp leads).1

/-- A slot that is meant for a signal is connected to it as often as it is declared. -/
theorem timesConnected_of_meant (alive : w.isDestroyed o = false)
    (meant : w.Meant target slot o signal) :
    timesConnected target slot.text
        ((w.given (w.linksOf target) o).filter (·.signal == signal)) =
      (w.classOf target).declarations slot.text := by
  rw [timesConnected_given alive, ← Class.countP_slots]
  refine List.countP_congr fun d isSlot => ?_
  rw [leads_iff connectable isSlot, beq_iff_eq]
  exact ⟨And.left, fun same => ⟨same, meant.congr (Signature.text_inj same)⟩⟩

theorem timesConnected_of_not_meant (alive : w.isDestroyed o = false)
    (unmeant : ¬ w.Meant target slot o signal) :
    timesConnected target slot.text
      ((w.given (w.linksOf target) o).filter (·.signal == signal)) = 0 := by
  rw [timesConnected_given alive, List.countP_eq_zero]
  intro d isSlot leads
  obtain ⟨same, meant⟩ := (leads_iff connectable isSlot).mp leads
  exact unmeant (meant.congr (Signature.text_inj same.symm))

/-- After the slots of a live object have been connected by their names to objects without
connections, an emission asks a slot exactly as often as the object's class and its ancestors declare
it if it is meant for the signal, and not at all otherwise. So a slot that is declared once is asked
once, and one that is declared again further down is asked twice. Whatever has been disconnected
since, and wherever one looks at an emission, it is never asked more often. -/
theorem Tidy.connectByName_repeats (tidy : w.Tidy) (alive : w.isDestroyed target = false)
    (unconnected : ∀ o ∈ w.descendants target, w.connections o = []) :
    ∃ n w', (∀ result v, Ends (Host.connectByName target) w result v ↔ result = .ok n ∧ v = w') ∧
      ∀ o ∈ w.descendants target, ∀ (signal : String) (slot : Member),
        (∀ v args during result u, v.connections o = w'.connections o → result ≠ .error .exhausted →
          Runs (emitSignal o signal args) v during (some result) u → ∃ outcomes later,
            during = .op (.view (·.connectionsOf o signal)) v :: later ∧
            Emission (Asked o args) o signal v outcomes later result u ∧
            (w.Meant target slot o signal →
              timesConnected target slot.text (outcomes.map Prod.fst) =
                (w.classOf target).declarations slot.text) ∧
            (¬ w.Meant target slot o signal →
              timesConnected target slot.text (outcomes.map Prod.fst) = 0)) ∧
        ∀ v args during outcome u, (v.connections o).Sublist (w'.connections o) →
          Runs (emitSignal o signal args) v during outcome u → during = [] ∨
          ∃ outcomes left first now x, outcomes.map Prod.fst ++ left = v.connectionsOf o signal ∧
            during = .op (.view (·.connectionsOf o signal)) v :: (first ++ now) ∧
            Deliveries (Asked o args) v outcomes first x ∧
            (now = [] ∨ ∃ c rest inner, left = c :: rest ∧
              now = .request (.deliver c o args) x.openScope :: inner) ∧
            timesConnected target slot.text (outcomes.map Prod.fst ++ left) ≤
              (w.classOf target).declarations slot.text := by
  refine ⟨_, _, fun result v => tidy.connectByName_iff alive connectable,
    fun o below signal slot => ?_⟩
  have aliveHere := tidy.alive_of_descendant below
  have table : (w.linkAll (w.linksOf target)).connections o = w.given (w.linksOf target) o := by
    rw [connections_linkAll, unconnected o below, List.nil_append]
  refine ⟨fun v args during result u same mild runs => ?_, fun v args during outcome u fewer runs => ?_⟩
  · obtain ⟨outcomes, later, first, emission⟩ := (runs_emitSignal mild).mp runs
    refine ⟨outcomes, later, first, emission, ?_⟩
    rw [emission.receivers, connectionsOf_eq, same, table]
    exact ⟨timesConnected_of_meant connectable aliveHere,
      timesConnected_of_not_meant connectable aliveHere⟩
  · refine runs.partly_emitted.imp_right ?_
    rintro ⟨outcomes, left, first, now, x, split, during, deliveries, asked⟩
    refine ⟨outcomes, left, first, now, x, split, during, deliveries, asked, ?_⟩
    rw [split, connectionsOf_eq]
    refine (List.Sublist.countP_le (fewer.filter _)).trans ?_
    rw [table]
    exact timesConnected_given_le connectable aliveHere

end World

/-- A class that declares a slot again. -/
def echo : Class := .extend (some listener)
  { name := "Echo"
    members := [{ name := "on_a_said", kind := .slot, params := [.string], body := some .log }] }

def echoes : List Step := [
  ⟨.newObject echo "b", ["b"]⟩, ⟨.newObject speaker "a", ["a"]⟩, ⟨.setParent 1 (some 0), []⟩]

/-- The slot is asked twice by one emission. -/
theorem connectByName_repeats_echoes : ∃ w' outcomes later u,
    Ends (Host.connectByName 0) (Step.play {} echoes) (.ok 2) w' ∧
    Emission (Asked 1 [.text "x"]) 1 "said(string)" w' outcomes later (.ok ()) u ∧
    timesConnected 0 "on_a_said(string)" (outcomes.map Prod.fst) = 2 := by
  obtain ⟨moments, session⟩ := Session.start.play echoes
  obtain ⟨alive, connectable, below, unconnected, ⟨slot, isSlot, text, named⟩, declared, done, emitted⟩ :
      (Step.play {} echoes).isDestroyed 0 = false ∧
      (∀ slot ∈ ((Step.play {} echoes).classOf 0).slots, slot.Connectable) ∧
      1 ∈ (Step.play {} echoes).descendants 0 ∧
      (∀ o ∈ (Step.play {} echoes).descendants 0,
        ((Step.play {} echoes).connections o).isEmpty = true) ∧
      (∃ slot ∈ ((Step.play {} echoes).classOf 0).slots, slot.text = "on_a_said(string)" ∧
        ((Step.play {} echoes).namedSignal slot ((Step.play {} echoes).descendants 0)).map
          (fun found => (found.1, found.2.text)) = some (1, "said(string)")) ∧
      ((Step.play {} echoes).classOf 0).declarations "on_a_said(string)" = 2 ∧
      ((Host.connectByName 0).run (Step.play {} echoes)).1 = .ok 2 ∧
      ((emitSignal 1 "said(string)" [.text "x"]).run
        ((Host.connectByName 0).run (Step.play {} echoes)).2).1 = .ok () := by
    decide +kernel
  obtain ⟨n, w', ends, each⟩ := (Reaches.of_session session).tidy.connectByName_repeats connectable
    alive fun o member => List.isEmpty_iff.mp (unconnected o member)
  obtain ⟨-, rfl⟩ := (ends _ _).mp (.of_run_ok done)
  obtain ⟨⟨o, m⟩, found, same⟩ := Option.map_eq_some_iff.mp named
  obtain ⟨rfl, signal⟩ := Prod.mk.inj same
  have meant : (Step.play {} echoes).Meant 0 slot 1 "said(string)" :=
    ⟨m, (World.namedSignal_eq_some_iff (connectable slot isSlot).plain).mp found, signal⟩
  obtain ⟨during, runs⟩ := Ends.of_run_ok emitted
  obtain ⟨outcomes, later, -, emission, times, -⟩ :=
    (each 1 below "said(string)" slot).1 _ _ _ _ _ rfl (by simp) runs
  refine ⟨_, outcomes, later, _, .of_run_ok done, emission, ?_⟩
  rw [← text, times meant, text, declared]

end ScriptBridge
