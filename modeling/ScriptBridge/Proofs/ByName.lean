import Mathlib.Algebra.BigOperators.Group.Finset.Piecewise
import ScriptBridge.Proofs.Felling
import ScriptBridge.Proofs.Slots

/-!
Slots that are connected by their names: a slot named `on_<object>_<signal>` is joined to a signal of
the first descendant of that name which has one that the slot can take.
-/

namespace ScriptBridge

open Relation (TransGen)

theorem Text.dropStart_eq_some_iff {start s rest : List Char} :
    dropStart start s = some rest ↔ s = start ++ rest := by
  induction start generalizing s with
  | nil => simp [dropStart, eq_comm]
  | cons c start ih =>
    cases s with
    | nil => simp [dropStart]
    | cons d s =>
      by_cases same : c = d
      · simp [dropStart, same, ih]
      · simp [dropStart, same, Ne.symm same]

theorem afterName_eq_some_iff {name rest signal : String} :
    afterName name rest = some signal ↔ rest = name ++ "_" ++ signal := by
  unfold afterName
  simp only [Option.bind_eq_bind, Option.bind_eq_some_iff, Option.map_eq_map,
    Option.map_eq_some_iff, Text.dropStart_eq_some_iff, ← String.toList_inj]
  constructor
  · rintro ⟨_, whole, rest, rfl, same⟩
    simp [whole, ← same]
  · intro same
    exact ⟨'_' :: signal.toList, by simpa using same, signal.toList, rfl, by simp⟩

namespace Class

/-- The signals of one name, in the order of look-ups. -/
def signalsNamed (c : Class) (name : String) : List Member :=
  c.members.filter fun m => decide (m.kind = .signal) && m.name == name

theorem mem_signalsNamed {c : Class} {name : String} {m : Member} :
    m ∈ c.signalsNamed name ↔ m ∈ c.members ∧ m.kind = .signal ∧ m.name = name := by
  simp [signalsNamed]

/-- A plain name stands for the first signal that has it. -/
theorem signal?_of_plain {c : Class} {name : String} {params : List HostType}
    (plain : Signature.IsPlain ⟨name, params⟩) :
    c.signal? name = (c.signalsNamed name).head? := by
  have normal : Signature.normalize name = name :=
    Signature.normalize_of_solid fun c member => (plain c member).1
  have bare : name.toList.contains '(' = false := by simpa using plain.not_mem
  unfold signal? member? signalsNamed
  rw [normal, List.head?_filter]
  dsimp only
  rw [bare]
  rfl

/-- The text of the first signal of a name stands for that signal. -/
theorem signal?_text {c : Class} {name : String} {m : Member} (plain : m.signature.IsPlain)
    (first : (c.signalsNamed name).head? = some m) : c.signal? m.text = some m := by
  unfold signalsNamed at first
  rw [List.head?_filter, List.find?_eq_some_iff_append] at first
  obtain ⟨isFirst, before, after, split, others⟩ := first
  rw [Bool.and_eq_true, decide_eq_true_eq, beq_iff_eq] at isFirst
  have bracket : m.text.toList.contains '(' = true := by
    simp [Member.text, Signature.toList_text]
  have normal : Signature.normalize m.text = m.text := plain.normalize_text
  unfold signal? member?
  rw [normal]
  dsimp only
  rw [bracket, List.find?_eq_some_iff_append]
  refine ⟨by simp [isFirst.1], before, after, split, fun e isBefore => ?_⟩
  -- A signal of the same text in front of it would have the same name.
  have other := others e isBefore
  simp only [Bool.not_eq_true', Bool.and_eq_false_imp, decide_eq_true_eq, beq_eq_false_iff_ne]
    at other
  simp only [Option.all_some, if_true, Bool.not_eq_true', Bool.and_eq_false_imp, decide_eq_true_eq,
    beq_eq_false_iff_ne]
  exact fun signal same =>
    other signal ((congrArg Signature.name (Signature.text_inj same)).trans isFirst.2)

/-- The text of a slot stands for the nearest slot that has it. -/
theorem slot?_text {c : Class} {slot : Member} (member : slot ∈ c.slots)
    (plain : slot.signature.IsPlain) :
    ∃ d ∈ c.slots, c.slot? slot.text = some d ∧ d.signature = slot.signature := by
  obtain ⟨declared, kind⟩ := List.mem_filter.mp member
  have kind : slot.kind = .slot := by simpa using kind
  obtain ⟨before, d, after, split, ⟨same, sameKind⟩, -, found⟩ :=
    member?_of_signature declared plain plain.normalize_text
  have found : c.member? slot.text (some .slot) = some d := kind ▸ found
  refine ⟨d, List.mem_filter.mpr ⟨?_, by simp [sameKind, kind]⟩, by simp [slot?, found], same⟩
  rw [split]
  exact List.mem_append_right _ List.mem_cons_self

end Class

namespace World

/-- A signal of an object has the name that a slot is named for and parameters that the slot can
take. -/
structure Offers (w : World) (slot : Member) (o : ObjectId) (signal : Member) : Prop where
  named : slot.name = "on_" ++ w.nameOf o ++ "_" ++ signal.name
  nonempty : w.nameOf o ≠ ""
  declared : signal ∈ (w.classOf o).signalsNamed signal.name
  begins : Signature.Begins slot.params signal.params

/-- A signal of an object that a slot can take is the first one of its name. -/
structure Answers (w : World) (slot : Member) (o : ObjectId) (signal : Member) : Prop extends
    w.Offers slot o signal where
  first : ((w.classOf o).signalsNamed signal.name).head? = some signal

/-- An object is the first of some candidates that have such a signal. -/
def FirstAnswer (w : World) (slot : Member) (candidates : List ObjectId) (o : ObjectId)
    (signal : Member) : Prop :=
  w.Answers slot o signal ∧ ∃ before after, candidates = before ++ o :: after ∧
    ∀ i ∈ before, ∀ m, ¬ w.Answers slot i m

variable {w : World} {slot : Member} {o : ObjectId} {signal : Member}

theorem FirstAnswer.mem {candidates : List ObjectId}
    (first : w.FirstAnswer slot candidates o signal) : o ∈ candidates := by
  obtain ⟨-, before, after, rfl, -⟩ := first
  simp

/-- Slots of one signature have the same answers. -/
theorem Answers.congr {d : Member} (same : d.signature = slot.signature)
    (answers : w.Answers slot o signal) : w.Answers d o signal := by
  obtain ⟨named, params⟩ := Signature.mk.inj same
  exact ⟨⟨named.trans answers.named, answers.nonempty, answers.declared,
    params ▸ answers.begins⟩, answers.first⟩

theorem FirstAnswer.congr {d : Member} {candidates : List ObjectId}
    (same : d.signature = slot.signature) (first : w.FirstAnswer slot candidates o signal) :
    w.FirstAnswer d candidates o signal := by
  obtain ⟨answers, before, after, split, others⟩ := first
  exact ⟨answers.congr same, before, after, split, fun i member m answers =>
    others i member m (answers.congr same.symm)⟩

/-- What a slot is named for is plain if the slot's own name is. -/
theorem plain_of_named {object name : String} (plain : slot.signature.IsPlain)
    (named : slot.name = "on_" ++ object ++ "_" ++ name) (params : List HostType) :
    Signature.IsPlain ⟨name, params⟩ := by
  intro c member
  refine plain c ?_
  change c ∈ slot.name.toList
  simp [named, member]

/-- What one candidate gives for what follows the start of a slot's name. -/
def answer? (w : World) (slot : Member) (rest : String) (o : ObjectId) :
    Option (ObjectId × Member) := do
  let name := w.nameOf o
  if name.isEmpty then none
  else do
    let signal ← (w.classOf o).signal? (← afterName name rest)
    if Signature.compatible signal.params slot.params then some (o, signal) else none

theorem namedSignal_eq (w : World) (slot : Member) (candidates : List ObjectId) :
    w.namedSignal slot candidates = (Text.dropStart "on_".toList slot.name.toList).bind fun rest =>
      candidates.findSome? (w.answer? slot (String.ofList rest)) := rfl

theorem answer?_eq_some_iff (plain : slot.signature.IsPlain) {rest : String}
    (start : slot.name = "on_" ++ rest) {found : ObjectId × Member} :
    w.answer? slot rest o = some found ↔ ∃ signal, found = (o, signal) ∧
      w.Answers slot o signal := by
  have follows {signal : String} : rest = w.nameOf o ++ "_" ++ signal ↔
      slot.name = "on_" ++ w.nameOf o ++ "_" ++ signal := by
    rw [start, ← String.toList_inj, ← String.toList_inj]
    simp
  unfold answer?
  simp only [Option.bind_eq_bind]
  by_cases empty : w.nameOf o = ""
  · have anonymous : (w.nameOf o).isEmpty = true := by simp [empty]
    rw [if_pos anonymous]
    refine iff_of_false (by simp) ?_
    rintro ⟨signal, -, answers⟩
    exact answers.nonempty empty
  · have known : ¬ (w.nameOf o).isEmpty = true := by simpa using empty
    rw [if_neg known]
    simp only [Option.bind_eq_some_iff, afterName_eq_some_iff, follows, Option.ite_none_right_eq_some,
      Option.some.injEq]
    constructor
    · rintro ⟨name, named, signal, isFirst, fits, rfl⟩
      rw [Class.signal?_of_plain (plain_of_named plain named [])] at isFirst
      have declared := List.mem_of_head? isFirst
      obtain ⟨-, -, rfl⟩ := Class.mem_signalsNamed.mp declared
      exact ⟨signal, rfl, ⟨named, empty, declared, Signature.compatible_iff.mp fits⟩, isFirst⟩
    · rintro ⟨signal, rfl, answers⟩
      refine ⟨signal.name, answers.named, signal, ?_, Signature.compatible_iff.mpr answers.begins, rfl⟩
      rw [Class.signal?_of_plain (plain_of_named plain answers.named [])]
      exact answers.first

theorem namedSignal_eq_some_iff {candidates : List ObjectId} (plain : slot.signature.IsPlain) :
    w.namedSignal slot candidates = some (o, signal) ↔
      w.FirstAnswer slot candidates o signal := by
  have starts {rest : List Char} : Text.dropStart "on_".toList slot.name.toList = some rest ↔
      slot.name = "on_" ++ String.ofList rest := by
    simp [Text.dropStart_eq_some_iff, ← String.toList_inj]
  rw [namedSignal_eq, Option.bind_eq_some_iff]
  constructor
  · rintro ⟨rest, dropped, found⟩
    have start := starts.mp dropped
    obtain ⟨before, i, after, rfl, here, others⟩ := List.findSome?_eq_some_iff.mp found
    obtain ⟨signal', same, answers⟩ := (answer?_eq_some_iff plain start).mp here
    cases same
    refine ⟨answers, before, after, rfl, fun j member m earlier => ?_⟩
    have missing := others j member
    rw [(answer?_eq_some_iff plain start).mpr ⟨m, rfl, earlier⟩] at missing
    cases missing
  · rintro ⟨answers, before, after, rfl, others⟩
    have start : slot.name = "on_" ++ String.ofList (w.nameOf o ++ "_" ++ signal.name).toList := by
      rw [answers.named, String.ofList_toList]
      simp [String.append_assoc]
    refine ⟨_, starts.mpr start, List.findSome?_eq_some_iff.mpr ⟨before, o, after, rfl, ?_, ?_⟩⟩
    · exact (answer?_eq_some_iff plain start).mpr ⟨signal, rfl, answers⟩
    · intro i member
      refine Option.eq_none_iff_forall_ne_some.mpr fun found here => ?_
      obtain ⟨m, -, earlier⟩ := (answer?_eq_some_iff plain start).mp here
      exact others i member m earlier

end World

/-- A signal that is to be connected to a receiver. -/
structure Link where
  source : ObjectId
  signal : String
  receiver : Receiver

namespace Link

/-- What links of one object become that gives them numbers from one on. -/
def numbered (n : Nat) (links : List Link) : List Connection :=
  links.mapIdx fun i l => ⟨n + i, l.signal, l.receiver⟩

theorem numbered_cons (n : Nat) (l : Link) (links : List Link) :
    numbered n (l :: links) = ⟨n, l.signal, l.receiver⟩ :: numbered (n + 1) links := by
  simp [numbered, List.mapIdx_cons, Nat.add_assoc, Nat.add_comm 1]

@[simp] theorem length_numbered (n : Nat) (links : List Link) :
    (numbered n links).length = links.length := List.length_mapIdx

theorem mem_of_mem_numbered {n : Nat} {links : List Link} {c : Connection}
    (member : c ∈ numbered n links) : ∃ l ∈ links, c.signal = l.signal ∧ c.receiver = l.receiver := by
  obtain ⟨i, inside, rfl⟩ := List.mem_mapIdx.mp member
  exact ⟨links[i], List.getElem_mem inside, rfl, rfl⟩

theorem exists_mem_numbered {links : List Link} {l : Link} (member : l ∈ links) (n : Nat) :
    ∃ c ∈ numbered n links, c.signal = l.signal ∧ c.receiver = l.receiver := by
  obtain ⟨i, inside, rfl⟩ := List.getElem_of_mem member
  exact ⟨_, List.mem_mapIdx.mpr ⟨i, inside, rfl⟩, rfl, rfl⟩

/-- Links of some objects, counted object by object. -/
theorem sum_filter {objects : List ObjectId} (once : objects.Nodup) {links : List Link}
    (inside : ∀ l ∈ links, l.source ∈ objects) :
    (objects.map fun o => (links.filter (·.source == o)).length).sum = links.length := by
  induction links with
  | nil => simp
  | cons l rest ih =>
    rw [List.forall_mem_cons] at inside
    have own (o : ObjectId) : ((l :: rest).filter (·.source == o)).length =
        (if o = l.source then 1 else 0) + (rest.filter (·.source == o)).length := by
      by_cases same : o = l.source
      · simp [same, Nat.add_comm]
      · simp [same, Ne.symm same]
    have here : (objects.map fun o => if o = l.source then 1 else 0).sum = 1 := by
      rw [← List.sum_toFinset _ once, Finset.sum_ite_eq', if_pos (List.mem_toFinset.mpr inside.1)]
    simp only [own, List.sum_map_add, here, ih inside.2, List.length_cons, Nat.add_comm 1]

end Link

/-- Gives an object the links that are its own, one after another. -/
def HostObject.connectAll (object : HostObject) (links : List Link) : HostObject :=
  { object with
    connections := object.connections ++ Link.numbered object.nextConnection links
    nextConnection := object.nextConnection + links.length }

theorem HostObject.connectAll_cons (object : HostObject) (l : Link) (links : List Link) :
    object.connectAll (l :: links) = (object.connect l.signal l.receiver).connectAll links := by
  simp [connectAll, connect, Link.numbered_cons, Nat.add_assoc, Nat.add_comm 1]

namespace World

/-- Connects what is to be connected, one after another. -/
def linkAll (w : World) (links : List Link) : World :=
  links.foldl (fun w l => (w.connect l.source l.signal l.receiver).2) w

variable (w : World) (links : List Link) (o : ObjectId)

theorem linkAll_append (more : List Link) :
    w.linkAll (links ++ more) = (w.linkAll links).linkAll more := List.foldl_append

/-- Each object gets its own links, in their order. -/
theorem object?_linkAll : (w.linkAll links).object? o =
    (w.object? o).map (·.connectAll (links.filter (·.source == o))) := by
  induction links generalizing w with
  | nil => simp [linkAll, HostObject.connectAll, Link.numbered]
  | cons l rest ih =>
    change ((w.connect l.source l.signal l.receiver).2.linkAll rest).object? o = _
    rw [ih, World.connect, object?_modifyObject]
    by_cases own : l.source = o
    · simp [own, HostObject.connectAll_cons, Function.comp_def]
    · simp [own]

theorem onlyObjects_linkAll : w.OnlyObjects (w.linkAll links) := by
  induction links generalizing w with
  | nil => rfl
  | cons l rest ih => exact (OnlyObjects.modifyObject w l.source _).trans (ih _)

@[simp] theorem classOf_linkAll : (w.linkAll links).classOf o = w.classOf o := by
  simp only [classOf, object?_linkAll, Option.map_map]
  rfl

@[simp] theorem nameOf_linkAll : (w.linkAll links).nameOf o = w.nameOf o := by
  simp only [nameOf, object?_linkAll, Option.map_map]
  rfl

@[simp] theorem isDestroyed_linkAll : (w.linkAll links).isDestroyed o = w.isDestroyed o := by
  simp only [isDestroyed, object?_linkAll, Option.map_map]
  rfl

theorem namedSignal_linkAll (slot : Member) (candidates : List ObjectId) :
    (w.linkAll links).namedSignal slot candidates = w.namedSignal slot candidates := by
  simp only [namedSignal, nameOf_linkAll, classOf_linkAll]

/-- The connections that an object gets when there are links to be connected. -/
def given : List Connection :=
  ((w.object? o).map fun object =>
    Link.numbered object.nextConnection (links.filter (·.source == o))).getD []

theorem connections_linkAll :
    (w.linkAll links).connections o = w.connections o ++ w.given links o := by
  cases there : w.object? o <;>
    simp [connections, wires?, HostObject.wires, object?_linkAll, given, there,
      HostObject.connectAll]

variable {w links o}

theorem given_of_object {object : HostObject} (there : w.object? o = some object) :
    w.given links o =
      Link.numbered object.nextConnection (links.filter (·.source == o)) := by
  simp [given, there]

theorem mem_of_mem_given {c : Connection} (member : c ∈ w.given links o) :
    ∃ l ∈ links, l.source = o ∧ c.signal = l.signal ∧ c.receiver = l.receiver := by
  cases there : w.object? o with
  | none => simp [given, there] at member
  | some object =>
    rw [given_of_object there] at member
    obtain ⟨l, own, same⟩ := Link.mem_of_mem_numbered member
    obtain ⟨isLink, source⟩ := List.mem_filter.mp own
    exact ⟨l, isLink, by simpa using source, same⟩

theorem exists_mem_given {l : Link} (member : l ∈ links) (alive : w.isDestroyed l.source = false) :
    ∃ c ∈ w.given links l.source, c.signal = l.signal ∧ c.receiver = l.receiver := by
  obtain ⟨object, there, -⟩ := object_of_alive alive
  rw [given_of_object there]
  exact Link.exists_mem_numbered (List.mem_filter.mpr ⟨member, by simp⟩) _

end World

/-- What can be connected by its name: the name is plain, and there is something to call. -/
structure Member.Connectable (m : Member) : Prop where
  plain : m.signature.IsPlain
  calls : m.body.isSome = true

namespace World

/-- What is to be connected to a slot of an object. -/
def linkOf (w : World) (target : ObjectId) (slot : Member) : Option Link := do
  let (o, signal) ← w.namedSignal slot (w.descendants target)
  let called ← (w.classOf target).slot? slot.text
  let body ← called.body
  pure ⟨o, signal.text, .slot target called.text body called.params.length⟩

/-- What is to be connected to the slots of an object, slot by slot. -/
def linksOf (w : World) (target : ObjectId) : List Link :=
  (w.classOf target).slots.filterMap (w.linkOf target)

variable {w : World} {target o : ObjectId} {slot signal : Member}

/-- A link of a slot is one of its first answer and of the nearest slot with its signature. -/
theorem linkOf_eq_some_iff (plain : slot.signature.IsPlain) {l : Link} :
    w.linkOf target slot = some l ↔ ∃ o signal called body,
      w.FirstAnswer slot (w.descendants target) o signal ∧
      (w.classOf target).slot? slot.text = some called ∧ called.body = some body ∧
      l = ⟨o, signal.text, .slot target called.text body called.params.length⟩ := by
  simp only [linkOf, Option.bind_eq_bind, Option.bind_eq_some_iff, Prod.exists,
    namedSignal_eq_some_iff plain, Option.pure_def, Option.some.injEq]
  constructor
  · rintro ⟨o, signal, first, called, found, body, calls, rfl⟩
    exact ⟨o, signal, called, body, first, found, calls, rfl⟩
  · rintro ⟨o, signal, called, body, first, found, calls, rfl⟩
    exact ⟨o, signal, first, called, found, body, calls, rfl⟩

end World

/-- What follows a look at the world for something that is there. -/
theorem Action.straight_find_bind {α β : Type} {w : World} {look : World → Except BridgeError α}
    {f : α → Action β} {x : α} (found : look w = .ok x) :
    (Action.view look >>= fun found => Action.ofExcept found >>= f).straight w =
      (f x).straight w := by
  rw [straight_bind, straight_view, Option.bind_some]
  dsimp only
  rw [found]
  rfl

namespace Host

variable {w : World} {target o : ObjectId} {name slotName : String} {signal slot : Member}

/-- To connect a signal to a slot that can take it, both of live objects, is one operation. -/
theorem straight_connectSlot {body : Behaviour} (known : (w.classOf o).signal? name = some signal)
    (found : (w.classOf target).slot? slotName = some slot)
    (begins : Signature.Begins slot.params signal.params) (calls : slot.body = some body)
    (alive : w.isDestroyed o = false) (aliveTarget : w.isDestroyed target = false) :
    (connectSlot o name target slotName).straight w =
      some (w.connect o signal.text (.slot target slot.text body slot.params.length)) := by
  have fits := Signature.compatible_iff.mpr begins
  unfold connectSlot
  rw [Action.straight_find_bind (Class.findSignal_eq_ok_iff.mpr known),
    Action.straight_find_bind (Class.findSlot_eq_ok_iff.mpr found), fits, if_neg (by simp), calls]
  dsimp only
  rw [Action.straight_find_bind (World.ensureAlive_iff.mpr alive),
    Action.straight_find_bind (World.ensureAlive_iff.mpr aliveTarget), Action.straight_perform]
  rfl

/-- Connects one slot to the signal of a candidate that its name tells, if there is one. -/
def connectNamed (target : ObjectId) (candidates : List ObjectId) (slot : Member) : Action Nat := do
  match ← .view (·.namedSignal slot candidates) with
  | some (o, signal) => do
    discard <| connectSlot o signal.text target slot.text
    pure 1
  | none => pure 0

theorem connectByName_eq (target : ObjectId) : connectByName target = (do
    .ofExcept (← .view (·.ensureAlive target))
    let candidates ← .view (·.descendants target)
    let slots ← .view fun w => (w.classOf target).slots
    let made ← slots.mapM (connectNamed target candidates)
    pure (made.foldl (· + ·) 0)) := rfl

section Steps

variable (alive : w.isDestroyed target = false)
  (below : ∀ o ∈ w.descendants target, w.isDestroyed o = false)
  (connectable : ∀ slot ∈ (w.classOf target).slots, slot.Connectable)
include alive below connectable

/-- What has been connected before changes no names and no classes, so each slot takes the link that
it has in the world at the beginning, if it has one. -/
theorem straight_connectNamed (member : slot ∈ (w.classOf target).slots) (done : List Link) :
    (connectNamed target (w.descendants target) slot).straight (w.linkAll done) =
      some ((w.linkOf target slot).toList.length,
        w.linkAll (done ++ (w.linkOf target slot).toList)) := by
  have plain := (connectable slot member).plain
  unfold connectNamed
  rw [Action.straight_bind, Action.straight_view, Option.bind_some]
  dsimp only
  rw [World.namedSignal_linkAll]
  cases found : w.namedSignal slot (w.descendants target) with
  | none =>
    have unlinked : w.linkOf target slot = none := by simp [World.linkOf, found]
    simp [unlinked]
  | some answer =>
    obtain ⟨o, signal⟩ := answer
    have first := (World.namedSignal_eq_some_iff plain).mp found
    have answers := first.1
    obtain ⟨called, isSlot, resolved, same⟩ := Class.slot?_text member plain
    obtain ⟨body, calls⟩ := Option.isSome_iff_exists.mp (connectable called isSlot).calls
    have link := (World.linkOf_eq_some_iff plain).mpr
      ⟨o, signal, called, body, first, resolved, calls, rfl⟩
    have known := Class.signal?_text (World.plain_of_named plain answers.named _) answers.first
    have connects := straight_connectSlot (w := w.linkAll done) (by simpa using known)
      (by simpa using resolved) (answers.congr same).begins calls (by simpa using below o first.mem)
      (by simpa using alive)
    dsimp only
    rw [Action.straight_bind, show discard (connectSlot o signal.text target slot.text) =
      (fun _ => ()) <$> connectSlot o signal.text target slot.text from rfl, Action.straight_map,
      connects, link, Option.toList_some, World.linkAll_append]
    rfl

theorem straight_connectEach {slots : List Member}
    (members : ∀ slot ∈ slots, slot ∈ (w.classOf target).slots) (done : List Link) :
    (slots.mapM (connectNamed target (w.descendants target))).straight (w.linkAll done) =
      some (slots.map fun slot => (w.linkOf target slot).toList.length,
        w.linkAll (done ++ slots.filterMap (w.linkOf target))) := by
  induction slots generalizing done with
  | nil => simp
  | cons slot rest ih =>
    rw [List.forall_mem_cons] at members
    have first := straight_connectNamed alive below connectable members.1 done
    simp only [List.mapM_cons, Action.straight_bind, first, Option.bind_some, ih members.2,
      Action.straight_pure, List.map_cons, List.append_assoc]
    cases link : w.linkOf target slot <;> simp [link]

theorem straight_connectByName : (connectByName target).straight w =
    some ((w.linksOf target).length, w.linkAll (w.linksOf target)) := by
  have each := straight_connectEach alive below connectable (fun _ member => member) []
  rw [List.nil_append] at each
  change Action.straight _ w = some (_, w.linkAll (w.linksOf target)) at each
  have counted : ((w.classOf target).slots.map fun slot =>
      (w.linkOf target slot).toList.length).foldl (· + ·) 0 = (w.linksOf target).length := by
    rw [World.linksOf, List.filterMap_eq_flatMap_toList, List.length_flatMap, List.sum_eq_foldl]
  rw [connectByName_eq, Action.straight_find_bind (World.ensureAlive_iff.mpr alive)]
  simp only [Action.straight_bind, Action.straight_view, Option.bind_some, each,
    Action.straight_pure, counted]

end Steps

end Host

namespace World

variable {w : World} {target : ObjectId} {slot : Member}

theorem Tidy.alive_of_descendant (tidy : w.Tidy) {o : ObjectId} (below : o ∈ w.descendants target) :
    w.isDestroyed o = false := by
  obtain ⟨p, child, -⟩ := TransGen.head'_iff.mp (tidy.forest.mem_descendants.mp below)
  exact tidy.alive_of_parent child

/-- What is connected for a slot joins its first answer to the nearest slot of its signature, for
which that answer is the first one as well. -/
theorem joins_of_linkOf (member : slot ∈ (w.classOf target).slots)
    (plain : slot.signature.IsPlain) {l : Link} (link : w.linkOf target slot = some l) :
    ∃ called ∈ (w.classOf target).slots, ∃ signal, called.signature = slot.signature ∧
      w.FirstAnswer called (w.descendants target) l.source signal ∧
      ∀ c : Connection, c.signal = l.signal → c.receiver = l.receiver →
        c.Joins signal called target := by
  obtain ⟨o, signal, called, body, first, resolved, calls, rfl⟩ := (linkOf_eq_some_iff plain).mp link
  obtain ⟨nearest, isSlot, found, same⟩ := Class.slot?_text member plain
  cases resolved.symm.trans found
  have first := first.congr same
  exact ⟨called, isSlot, signal, same, first,
    fun c named receives => ⟨named, first.1.begins, body, calls, receives⟩⟩

theorem of_mem_linksOf (connectable : ∀ slot ∈ (w.classOf target).slots, slot.Connectable) {l : Link}
    (member : l ∈ w.linksOf target) :
    ∃ slot ∈ (w.classOf target).slots, ∃ signal,
      w.FirstAnswer slot (w.descendants target) l.source signal ∧
      ∀ c : Connection, c.signal = l.signal → c.receiver = l.receiver →
        c.Joins signal slot target := by
  obtain ⟨slot, isSlot, link⟩ := List.mem_filterMap.mp member
  obtain ⟨called, isSlot', signal, -, first, joins⟩ :=
    joins_of_linkOf isSlot (connectable slot isSlot).plain link
  exact ⟨called, isSlot', signal, first, joins⟩

namespace Tidy

variable (tidy : w.Tidy) (alive : w.isDestroyed target = false)
  (connectable : ∀ slot ∈ (w.classOf target).slots, slot.Connectable)
include tidy alive connectable

theorem connectByName_iff {result : Except Fault Nat} {w' : World} :
    Ends (Host.connectByName target) w result w' ↔
      result = .ok (w.linksOf target).length ∧ w' = w.linkAll (w.linksOf target) :=
  Ends.straight_iff
    (Host.straight_connectByName alive (fun _ => tidy.alive_of_descendant) connectable)

/-- To connect the slots of a live object by their names ends in one way, without a failure. Only
the connections of its descendants have changed then, and the result is how many there are that were
not there before. Each of these joins a slot that is named for it to a signal of the first descendant
in pre-order that has the name and whose first signal of that name the slot can take. -/
theorem connectByName_law :
    ∃ (added : ObjectId → List Connection) (w' : World),
      (∀ result v, Ends (Host.connectByName target) w result v ↔
        result = .ok ((w.descendants target).map fun o => (added o).length).sum ∧ v = w') ∧
      w.OnlyObjects w' ∧
      (∀ o, w'.object? o = (w.object? o).map fun object =>
        { object with
          connections := object.connections ++ added o
          nextConnection := object.nextConnection + (added o).length }) ∧
      (∀ o ∉ w.descendants target, added o = []) ∧
      (∀ o, ∀ c ∈ added o, ∃ slot ∈ (w.classOf target).slots, ∃ signal,
        w.FirstAnswer slot (w.descendants target) o signal ∧ c.Joins signal slot target) ∧
      (∀ x, w.descendants x = (w.childrenOf x).flatMap fun c => c :: w.descendants c) ∧
      (w.descendants target).Nodup := by
  have sources {l : Link} (member : l ∈ w.linksOf target) : l.source ∈ w.descendants target := by
    obtain ⟨slot, -, signal, first, -⟩ := of_mem_linksOf connectable member
    exact first.mem
  have counted : ((w.descendants target).map fun o => (w.given (w.linksOf target) o).length).sum =
      (w.linksOf target).length := by
    rw [← Link.sum_filter (tidy.forest.nodup_descendants target) fun l => sources]
    refine congrArg List.sum (List.map_congr_left fun o below => ?_)
    obtain ⟨object, there, -⟩ := object_of_alive (tidy.alive_of_descendant below)
    rw [given_of_object there, Link.length_numbered]
  refine ⟨w.given (w.linksOf target), w.linkAll (w.linksOf target), fun result v => ?_,
    w.onlyObjects_linkAll _, fun o => ?_, fun o outside => ?_, fun o c member => ?_,
    tidy.forest.descendants_eq, tidy.forest.nodup_descendants target⟩
  · rw [counted]
    exact tidy.connectByName_iff alive connectable
  · rw [object?_linkAll]
    cases there : w.object? o with
    | none => rfl
    | some object => simp [given_of_object there, HostObject.connectAll]
  · refine List.eq_nil_iff_forall_not_mem.mpr fun c member => outside ?_
    obtain ⟨l, isLink, rfl, -⟩ := mem_of_mem_given member
    exact sources isLink
  · obtain ⟨l, isLink, rfl, named, receives⟩ := mem_of_mem_given member
    obtain ⟨slot, isSlot, signal, first, joins⟩ := of_mem_linksOf connectable isLink
    exact ⟨slot, isSlot, signal, first, joins c named receives⟩

end Tidy

end World

instance (m : Member) : Decidable m.Connectable :=
  decidable_of_iff (m.signature.IsPlain ∧ m.body.isSome = true)
    ⟨fun ⟨plain, calls⟩ => ⟨plain, calls⟩, fun ⟨plain, calls⟩ => ⟨plain, calls⟩⟩

theorem connectByName_law_patched : ∃ (c : Connection) (slot signal : Member) (w' : World),
    Ends (Host.connectByName 0) (Step.play {} patched) (.ok 1) w' ∧
    w'.connections 1 = (Step.play {} patched).connections 1 ++ [c] ∧ c.Joins signal slot 0 ∧
    slot.name = "on_source_" ++ signal.name := by
  obtain ⟨moments, session⟩ := Session.start.play patched
  obtain ⟨alive, connectable, below, name, done⟩ :
      (Step.play {} patched).isDestroyed 0 = false ∧
      (∀ slot ∈ ((Step.play {} patched).classOf 0).slots, slot.Connectable) ∧
      (Step.play {} patched).descendants 0 = [1] ∧ (Step.play {} patched).nameOf 1 = "source" ∧
      ((Host.connectByName 0).run (Step.play {} patched)).1 = .ok 1 := by
    decide +kernel
  obtain ⟨added, w', ends, -, objects, -, each, -⟩ :=
    (Reaches.of_session session).tidy.connectByName_law alive connectable
  obtain ⟨number, same⟩ := (ends _ _).mp (.of_run_ok done)
  rw [below] at number each
  obtain ⟨c, only⟩ : ∃ c, added 1 = [c] := List.length_eq_one_iff.mp (by simpa using number.symm)
  obtain ⟨slot, -, signal, ⟨answers, -⟩, joins⟩ := each 1 c (by simp [only])
  refine ⟨c, slot, signal, w', same ▸ .of_run_ok done, ?_, joins, ?_⟩
  · have after := objects 1
    cases there : (Step.play {} patched).object? 1 with
    | none => simp [World.nameOf, there] at name
    | some object =>
      rw [there] at after
      simp [World.connections, World.wires?, HostObject.wires, there, after, only]
  · simpa [name, String.append_assoc] using answers.named

namespace World

variable {w : World} {target : ObjectId}

/-- A signal that an object offers for a slot is behind another one of its name that the slot cannot
take. -/
def Hidden (w : World) (slot : Member) (o : ObjectId) (signal : Member) : Prop :=
  ∃ first, ((w.classOf o).signalsNamed signal.name).head? = some first ∧
    ¬ Signature.Begins slot.params first.params

/-- Between two worlds some object has been connected to a slot of another one. -/
def Gains (w w' : World) (target : ObjectId) (slot : Member) : Prop :=
  ∃ o added, w'.connections o = w.connections o ++ added ∧
    ∃ c ∈ added, c.receiver.isFor (.slot target slot.text) = true

variable {slot signal : Member} {o : ObjectId}

/-- What is offered is the first one, or behind one that the slot cannot take, or behind one that it
can take. -/
theorem Offers.answers_or_hidden (offers : w.Offers slot o signal) :
    (∃ first, w.Answers slot o first) ∨ w.Hidden slot o signal := by
  obtain ⟨first, isFirst⟩ : ∃ first, ((w.classOf o).signalsNamed signal.name).head? = some first :=
    Option.isSome_iff_exists.mp (by simpa using List.ne_nil_of_mem offers.declared)
  have declared := List.mem_of_head? isFirst
  have name : first.name = signal.name := (Class.mem_signalsNamed.mp declared).2.2
  by_cases begins : Signature.Begins slot.params first.params
  · rw [← name] at isFirst declared
    exact .inl ⟨first, ⟨name ▸ offers.named, offers.nonempty, declared, begins⟩, isFirst⟩
  · exact .inr ⟨first, isFirst, begins⟩

theorem Answers.not_hidden (answers : w.Answers slot o signal) {other : Member}
    (offers : w.Offers slot o other) : ¬ w.Hidden slot o other := by
  rintro ⟨first, isFirst, unfit⟩
  have name : other.name = signal.name := by
    have same := offers.named.symm.trans answers.named
    rw [← String.toList_inj] at same ⊢
    simpa using same
  rw [name, answers.first] at isFirst
  cases isFirst
  exact unfit answers.begins

/-- Some candidate is the first of those that answer. -/
theorem exists_firstAnswer {candidates : List ObjectId}
    (some : ∃ o ∈ candidates, ∃ signal, w.Answers slot o signal) :
    ∃ o signal, w.FirstAnswer slot candidates o signal := by
  induction candidates with
  | nil => simp at some
  | cons i rest ih =>
    by_cases here : ∃ signal, w.Answers slot i signal
    · obtain ⟨signal, answers⟩ := here
      exact ⟨i, signal, answers, [], rest, rfl, by simp⟩
    · obtain ⟨o, member, signal, answers⟩ := some
      rcases List.mem_cons.mp member with rfl | member
      · exact absurd ⟨signal, answers⟩ here
      · obtain ⟨o, signal, answers, before, after, rfl, others⟩ := ih ⟨o, member, signal, answers⟩
        refine ⟨o, signal, answers, i :: before, after, rfl, ?_⟩
        rw [List.forall_mem_cons]
        exact ⟨fun m answers => here ⟨m, answers⟩, others⟩

/-- Two receivers that are slots of an object are found by their own keys only. -/
theorem isFor_slot_iff {r : Receiver} {text : String} : r.isFor (.slot target text) = true ↔
    ∃ body arity, r = .slot target text body arity := by
  cases r <;> simp [Receiver.isFor]

/-- A slot is connected to something exactly if some descendant answers it. -/
theorem gains_linkAll_iff (connectable : ∀ slot ∈ (w.classOf target).slots, slot.Connectable)
    (below : ∀ o ∈ w.descendants target, w.isDestroyed o = false)
    (member : slot ∈ (w.classOf target).slots) :
    w.Gains (w.linkAll (w.linksOf target)) target slot ↔
      ∃ o ∈ w.descendants target, ∃ signal, w.Answers slot o signal := by
  have plain := (connectable slot member).plain
  constructor
  · rintro ⟨o, added, listed, c, isAdded, isFor⟩
    rw [connections_linkAll, List.append_cancel_left_eq] at listed
    obtain ⟨l, isLink, rfl, named, receives⟩ := mem_of_mem_given (listed ▸ isAdded)
    obtain ⟨other, -, signal, first, joins⟩ := of_mem_linksOf connectable isLink
    obtain ⟨body, -, receiver⟩ := (joins c named receives).calls
    rw [receiver, isFor_slot_iff] at isFor
    obtain ⟨_, _, same⟩ := isFor
    have text : other.text = slot.text := (Receiver.slot.inj same).2.1
    exact ⟨l.source, first.mem, signal, first.1.congr (Signature.text_inj text.symm)⟩
  · intro answered
    obtain ⟨o, signal, first⟩ := exists_firstAnswer answered
    obtain ⟨called, isSlot, resolved, same⟩ := Class.slot?_text member plain
    obtain ⟨body, calls⟩ := Option.isSome_iff_exists.mp (connectable called isSlot).calls
    have link := (linkOf_eq_some_iff plain).mpr
      ⟨o, signal, called, body, first, resolved, calls, rfl⟩
    have isLink : _ ∈ w.linksOf target := List.mem_filterMap.mpr ⟨slot, member, link⟩
    obtain ⟨c, isGiven, -, receives⟩ := exists_mem_given isLink (below o first.mem)
    refine ⟨o, _, w.connections_linkAll _ o, c, isGiven, isFor_slot_iff.mpr ⟨body, called.params.length, ?_⟩⟩
    rw [receives, show slot.text = called.text from congrArg Signature.text same.symm]

/-- To connect the slots of a live object by their names connects a slot exactly if some descendant
has a signal of the name that comes first and that the slot can take. So a slot that is connected has
been offered a signal, and one that is not has been offered only signals that stand behind others of
their name which it cannot take. -/
theorem Tidy.connectByName_gains (tidy : w.Tidy) (alive : w.isDestroyed target = false)
    (connectable : ∀ slot ∈ (w.classOf target).slots, slot.Connectable) :
    ∃ n w', (∀ result v, Ends (Host.connectByName target) w result v ↔ result = .ok n ∧ v = w') ∧
      ∀ slot ∈ (w.classOf target).slots,
        (w.Gains w' target slot ↔
          ∃ o ∈ w.descendants target, ∃ signal, w.Answers slot o signal) ∧
        (w.Gains w' target slot → ∃ o ∈ w.descendants target, ∃ signal, w.Offers slot o signal) ∧
        (¬ w.Gains w' target slot ↔ ∀ o ∈ w.descendants target, ∀ signal,
          w.Offers slot o signal → w.Hidden slot o signal) := by
  refine ⟨_, _, fun result v => tidy.connectByName_iff alive connectable, fun slot member => ?_⟩
  have gains := gains_linkAll_iff connectable (fun _ => tidy.alive_of_descendant) member
  refine ⟨gains, fun gained => ?_, ?_⟩
  · obtain ⟨o, below, signal, answers⟩ := gains.mp gained
    exact ⟨o, below, signal, answers.toOffers⟩
  · rw [gains]
    constructor
    · intro unanswered o below signal offers
      exact offers.answers_or_hidden.resolve_left fun ⟨first, answers⟩ =>
        unanswered ⟨o, below, first, answers⟩
    · rintro hidden ⟨o, below, signal, answers⟩
      exact answers.not_hidden answers.toOffers (hidden o below signal answers.toOffers)

end World

/-- A class with two signals of one name, and one with slots for each of them. -/
def speaker : Class := .extend (some .root)
  { name := "Speaker"
    members :=
      [{ name := "said", kind := .signal, params := [.string], body := none },
       { name := "said", kind := .signal, params := [.int], body := none }] }

@[inherit_doc speaker]
def listener : Class := .extend (some .root)
  { name := "Listener"
    members :=
      [{ name := "on_a_said", kind := .slot, params := [.string], body := some .log },
       { name := "on_a_said", kind := .slot, params := [.int], body := some .log }] }

def conversation : List Step := [
  ⟨.newObject listener "b", ["b"]⟩, ⟨.newObject speaker "a", ["a"]⟩, ⟨.setParent 1 (some 0), []⟩]

/-- The slot for the second signal is offered it, and is not connected. -/
theorem connectByName_gains_conversation : ∃ n w',
    ∃ slot ∈ ((Step.play {} conversation).classOf 0).slots, ∃ signal,
      Ends (Host.connectByName 0) (Step.play {} conversation) (.ok n) w' ∧
      (Step.play {} conversation).Offers slot 1 signal ∧
      ¬ (Step.play {} conversation).Gains w' 0 slot := by
  obtain ⟨moments, session⟩ := Session.start.play conversation
  obtain ⟨alive, connectable, below, name, ⟨slot, isSlot, called, takes⟩,
      ⟨signal, declared, gives⟩, behind⟩ :
      (Step.play {} conversation).isDestroyed 0 = false ∧
      (∀ slot ∈ ((Step.play {} conversation).classOf 0).slots, slot.Connectable) ∧
      (Step.play {} conversation).descendants 0 = [1] ∧
      (Step.play {} conversation).nameOf 1 = "a" ∧
      (∃ slot ∈ ((Step.play {} conversation).classOf 0).slots,
        slot.name = "on_a_said" ∧ slot.params = [.int]) ∧
      (∃ signal ∈ ((Step.play {} conversation).classOf 1).signalsNamed "said",
        signal.params = [.int]) ∧
      (((Step.play {} conversation).classOf 1).signalsNamed "said").head?.map (·.params) =
        some [.string] := by
    decide +kernel
  obtain ⟨n, w', ends, each⟩ :=
    (Reaches.of_session session).tidy.connectByName_gains alive connectable
  obtain ⟨first, isFirst, other⟩ := Option.map_eq_some_iff.mp behind
  obtain ⟨-, -, said⟩ := Class.mem_signalsNamed.mp declared
  refine ⟨n, w', slot, isSlot, signal, (ends _ _).mpr ⟨rfl, rfl⟩, ⟨?_, by simp [name], said ▸ declared,
    ?_⟩, ?_⟩
  · rw [called, name, said]
    decide
  · rw [takes, gives, ← Signature.compatible_iff]
    decide
  · refine (each slot isSlot).2.2.mpr fun o member m offers => ?_
    rw [below, List.mem_singleton] at member
    subst member
    have named := offers.named
    rw [called, name, ← String.toList_inj] at named
    have same : m.name = "said" := by
      rw [← String.toList_inj]
      simpa using named.symm
    refine ⟨first, same ▸ isFirst, ?_⟩
    rw [takes, other, ← Signature.compatible_iff]
    decide

end ScriptBridge
