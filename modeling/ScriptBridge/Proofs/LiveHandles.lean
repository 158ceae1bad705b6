import Mathlib.Data.List.Dedup
import ScriptBridge.Proofs.Tended

/-!
The count of live handles. Between two steps of a session a state counts as many handles as it has
objects that somebody holds: names of the program around the bridge, kept entries, properties,
receivers of signals, native objects. In the middle of a step the values of calls in progress add to
that, as anchors of scopes that are open.
-/

namespace ScriptBridge

open ScriptBridge.Action (Meets)
open Script (Datum)

namespace World

variable {w w₁ w' : World} {s : StateId}

/-- The anchors of a state on which the world holds handles, each of them once. -/
def heldAnchors (w : World) (s : StateId) : List AnchorId :=
  ((w.heldHandles.filter (·.state == s)).map (·.anchor)).dedup

theorem mem_heldAnchors {i : AnchorId} :
    i ∈ w.heldAnchors s ↔ ∃ h ∈ w.heldHandles, h.state = s ∧ h.anchor = i := by
  simp [heldAnchors, and_assoc]

theorem nodup_heldAnchors : (w.heldAnchors s).Nodup := List.nodup_dedup _

/-- Whether no scope is open and every anchor is held. -/
structure Settled (w : World) : Prop where
  level : w.level = 0
  held : ∀ s, ∀ a ∈ w.anchorsOf s, a.scope = none ∧ a.isIn s w.heldHandles

namespace Settled

theorem start : Settled {} := ⟨rfl, fun s a member => by simp [anchorsOf, engine?] at member⟩

/-- All is settled again after a scope that gives out no handle. -/
theorem exit (settled : w.Settled) {sc : Scope} (inside : (sc.enter w).Onward w₁) :
    (sc.exit [] w₁).Settled where
  level := by rw [level_exit, inside.level, level_enter, settled.level]
  held s b member := by
    rw [anchorsOf_exit, inside.level, level_enter, settled.level] at member
    obtain ⟨a, there, kept⟩ := List.mem_filterMap.mp member
    rcases Anchor.settled_cases kept with ⟨n, outer, scope, -⟩ | ⟨given, -⟩ | ⟨held, none⟩
    · have small : n < (sc.enter w).level := by
        rw [level_enter, settled.level]
        exact outer
      have before := inside.outer s a there n small scope
      cases (settled.held s a (anchorsOf_enter sc w s ▸ before)).1.symm.trans scope
    · cases given
    · refine ⟨none, ?_⟩
      rw [(OnlyEngines.exit sc [] w₁).heldHandles]
      obtain ⟨h, own, state, on⟩ := Anchor.isIn_iff.mp held
      exact Anchor.isIn_iff.mpr ⟨h, own, state, on.trans (Anchor.id_of_settled kept).symm⟩

/-- The count of an open state is then that of the anchors that are held. -/
theorem liveHandles (settled : w.Settled) (anchored : w.Anchored) (isOpen : w.isOpen s) :
    w.liveHandles s = (w.heldAnchors s).length := by
  have same : ((w.anchorsOf s).map (·.id)).Perm (w.heldAnchors s) := by
    refine (List.perm_ext_iff_of_nodup (anchored.booked.nodup s) nodup_heldAnchors).mpr fun i => ?_
    rw [mem_heldAnchors]
    constructor
    · intro member
      obtain ⟨a, there, rfl⟩ := List.mem_map.mp member
      exact Anchor.isIn_iff.mp (settled.held s a there).2
    · rintro ⟨h, held, rfl, rfl⟩
      obtain ⟨a, there, on⟩ := (anchored.backs held).2 isOpen
      exact List.mem_map.mpr ⟨a, there, on⟩
  rw [anchored.booked.liveHandles, ← same.length_eq, List.length_map]

end Settled

end World

/-- A scope that gives out no handle, and with which a program ends, leaves all settled. -/
theorem Runs.settled {sc : Scope} {held : β → List Handle} {body : Action β}
    {next : Except Fault β → Action α} {w w' : World} {moments : List Moment}
    {result : Except Fault α} (runs : Runs (.scope sc held body next) w moments (some result) w')
    (nothing : ∀ b, held b = [])
    (quits : ∀ inner, (∃ a, next inner = .pure a) ∨ ∃ f, next inner = .fail f)
    (booked : w.Booked) (settled : w.Settled) : w'.Settled := by
  cases runs with
  | scopeDone inside rest =>
    rename_i w₁ _ _ inner
    have kept : Scope.kept held inner = [] := by
      cases inner with
      | ok b => exact nothing b
      | error => rfl
    have ended := settled.exit (inside.onward rfl (booked.enter sc))
    rw [kept] at rest
    rcases quits inner with ⟨a, same⟩ | ⟨f, same⟩
    · rw [same] at rest
      cases rest
      exact ended
    · rw [same] at rest
      cases rest
      exact ended

/-- A step leaves all settled, whether it succeeds or fails. -/
theorem Step.settled {step : Step} {w w' : World} {moments : List Moment}
    {result : Except Fault (Except BridgeError Unit)}
    (runs : Runs step.program w moments (some result) w') (booked : w.Booked)
    (settled : w.Settled) : w'.Settled := by
  have trying {w₁ : World} {first : List Moment} {tried : Except Fault (Except BridgeError Unit)}
      (runs : Runs (.attempt do
        let gains ← step.call.program
        gains.keep step.names) w first (some tried) w₁) : w₁.Settled := by
    refine runs.settled (fun _ => rfl) ?_ booked settled
    rintro ((e | _) | u)
    · exact .inl ⟨_, rfl⟩
    · exact .inr ⟨_, rfl⟩
    · exact .inl ⟨_, rfl⟩
  have reaping {w₁ w₂ : World} {later : List Moment} {reaped : Except Fault Unit}
      (booked : w₁.Booked) (settled : w₁.Settled)
      (runs : Runs (.within .values do State.reapAll (← .view (·.objects.next))) w₁ later
        (some reaped) w₂) : w₂.Settled := by
    refine runs.settled (fun _ => rfl) ?_ booked settled
    rintro (f | u)
    · exact .inr ⟨_, rfl⟩
    · exact .inl ⟨_, rfl⟩
  cases result with
  | ok outcome =>
    obtain ⟨tried, w₁, _, _, -, first, rest⟩ := Runs.of_bind runs
    obtain ⟨_, w₂, _, _, -, second, last⟩ := Runs.of_bind rest
    obtain ⟨-, -, rfl⟩ := Runs.of_pure last
    exact reaping (first.booked booked) (trying first) second
  | error f =>
    rcases Runs.of_bind_error runs with failed | ⟨tried, w₁, _, _, -, first, rest⟩
    · exact trying failed
    · rcases Runs.of_bind_error rest with failed | ⟨_, w₂, _, _, -, second, last⟩
      · exact reaping (first.booked booked) (trying first) failed
      · obtain ⟨-, none, -⟩ := Runs.of_pure last
        cases none

theorem Tended.settled {w : World} (tended : Tended w) : w.Settled := by
  induction tended with
  | start => exact .start
  | step session step _ runs ih => exact Step.settled runs session.anchored.booked ih

namespace World

variable {w w₁ w' : World} {s : StateId}

/-- How many anchors of a state are released when the innermost scope ends and its result holds some
handles. -/
def releasing (w : World) (result : List Handle) (s : StateId) : Nat :=
  ((w.engine? s).map fun e => (e.released s w.level result w.heldHandles).length).getD 0

/-- What has been made of a world if nothing has happened but that objects have been converted. -/
structure Converted (w w' : World) : Prop where
  level : w'.level = w.level
  held : w'.heldHandles = w.heldHandles
  anchors : ∀ s, ∃ made, w'.anchorsOf s = made ++ w.anchorsOf s ∧
    ∀ a ∈ made, a.scope = some w.level ∧ ¬ a.isIn s w.heldHandles

namespace Converted

theorem refl (w : World) : w.Converted w :=
  ⟨rfl, rfl, fun _ => ⟨[], rfl, List.forall_mem_nil _⟩⟩

theorem trans (first : w.Converted w₁) (second : w₁.Converted w') : w.Converted w' where
  level := second.level.trans first.level
  held := second.held.trans first.held
  anchors s := by
    obtain ⟨before, same, known⟩ := first.anchors s
    obtain ⟨made, same', known'⟩ := second.anchors s
    refine ⟨made ++ before, by rw [same', same, List.append_assoc], fun a member => ?_⟩
    rw [first.level, first.held] at known'
    exact (List.mem_append.mp member).elim (known' a) (known a)

theorem anchor (anchored : w.Anchored) (r : Ref) : w.Converted (w.anchor r).2 where
  level := rfl
  held := (OnlyEngines.modifyEngine w r.owner _).heldHandles
  anchors s := by
    unfold anchorsOf
    rw [engine?_anchor]
    split
    · rename_i own
      cases found : w.engine? s with
      | none => exact ⟨[], rfl, List.forall_mem_nil _⟩
      | some e =>
        refine ⟨[⟨e.nextAnchor, r, some w.level⟩], rfl, List.forall_mem_singleton.mpr ⟨rfl, ?_⟩⟩
        intro isIn
        -- A number that no handle can have: the anchors of all handles have been given before.
        obtain ⟨h, held, rfl, on⟩ := Anchor.isIn_iff.mp isIn
        obtain ⟨a, there, same⟩ := (anchored.backs held).2 (by simp [isOpen, found])
        rw [anchorsOf_eq found] at there
        have issued := (anchored.booked _ e found).issued a there
        rw [same, on] at issued
        exact Nat.lt_irrefl _ issued
    · exact ⟨[], rfl, List.forall_mem_nil _⟩

/-- A scope that gives out no handle releases all that has been made for objects in it. -/
theorem anchorsOf_exit (converted : w.Converted w') (sc : Scope) (s : StateId) :
    (sc.exit [] w').anchorsOf s = (sc.exit [] w).anchorsOf s := by
  obtain ⟨made, same, known⟩ := converted.anchors s
  rw [World.anchorsOf_exit, World.anchorsOf_exit, converted.level, converted.held, same,
    List.filterMap_append]
  have gone : made.filterMap (·.settled s w.level [] w.heldHandles) = [] := by
    refine List.filterMap_eq_nil_iff.mpr fun a member => ?_
    obtain ⟨scope, free⟩ := known a member
    refine Option.eq_none_iff_forall_ne_some.mpr fun b kept => ?_
    rcases Anchor.settled_cases kept with ⟨n, outer, own, -⟩ | ⟨given, -⟩ | ⟨held, -⟩
    · cases scope.symm.trans own
      exact Nat.lt_irrefl _ outer
    · cases given
    · exact free held
  rw [gone, List.nil_append]

end Converted

/-- Between two steps a scope in which nothing happens changes nothing. -/
theorem Settled.anchorsOf_scope (settled : w.Settled) (sc : Scope) (s : StateId) :
    (sc.exit [] (sc.enter w)).anchorsOf s = w.anchorsOf s := by
  rw [anchorsOf_exit, anchorsOf_enter, level_enter, (OnlyEngines.enter sc w).heldHandles]
  refine (List.filterMap_congr fun a member => ?_).trans List.filterMap_some
  obtain ⟨free, held⟩ := settled.held s a member
  have given : a.isIn s [] = false := rfl
  simp only [Anchor.settled, free, Option.any_none, Bool.false_eq_true, if_false, given, held, if_true]
  exact congrArg (fun scope => some { a with scope }) free.symm

/-- To convert an object adds one to the count of its state. -/
theorem liveHandles_anchor {r : Ref} (isOpen : w.isOpen r.owner) (s : StateId) :
    (w.anchor r).2.liveHandles s = w.liveHandles s + if r.owner = s then 1 else 0 := by
  unfold World.liveHandles
  rw [engine?_anchor]
  split
  · rename_i own
    subst own
    obtain ⟨e, found⟩ := exists_engine isOpen
    rw [found]
    rfl
  · rfl

variable (anchored : w.Anchored)
include anchored

/-- The count never falls below zero when anchors are released. -/
theorem liveHandles_exit (sc : Scope) (result : List Handle) (s : StateId) :
    (sc.exit result w).liveHandles s + w.releasing result s = w.liveHandles s := by
  rw [(anchored.exit sc result).booked.liveHandles, anchored.booked.liveHandles, anchorsOf_exit]
  unfold releasing anchorsOf
  cases w.engine? s with
  | none => rfl
  | some e => exact Engine.Booked.length_released s result w.heldHandles e

/-- An anchor stays after a scope if it belongs to one further out, or the result or the world holds
it. -/
theorem mem_anchorsOf_exit (sc : Scope) (result : List Handle) {a : Anchor}
    (member : a ∈ w.anchorsOf s) : a.id ∈ ((sc.exit result w).anchorsOf s).map (·.id) ↔
      (∃ n < w.level, a.scope = some n) ∨ a.isIn s result ∨ a.isIn s w.heldHandles := by
  rw [anchorsOf_exit]
  constructor
  · intro stays
    obtain ⟨b, there, same⟩ := List.mem_map.mp stays
    obtain ⟨a', before, kept⟩ := List.mem_filterMap.mp there
    have own : a' = a := by
      refine List.inj_on_of_nodup_map (anchored.booked.nodup s) before member ?_
      exact (Anchor.id_of_settled kept).symm.trans same
    subst own
    rcases Anchor.settled_cases kept with ⟨n, outer, scope, -⟩ | ⟨given, -⟩ | ⟨held, -⟩
    · exact .inl ⟨n, outer, scope⟩
    · exact .inr (.inl given)
    · exact .inr (.inr held)
  · intro held
    obtain ⟨b, kept⟩ : ∃ b, a.settled s w.level result w.heldHandles = some b := by
      rcases held with ⟨n, outer, scope⟩ | given | there
      · exact ⟨a, Anchor.settled_outer scope outer⟩
      · obtain ⟨h, own, state, on⟩ := Anchor.isIn_iff.mp given
        exact Anchor.settled_of_held state on (.inl own)
      · obtain ⟨h, own, state, on⟩ := Anchor.isIn_iff.mp there
        exact Anchor.settled_of_held state on (.inr own)
    exact List.mem_map.mpr
      ⟨b, List.mem_filterMap.mpr ⟨a, member, kept⟩, Anchor.id_of_settled kept⟩

end World

/-- Whether an operation converts an object. -/
def Op.Converts : Op β → Prop
  | .anchor _ => True
  | _ => False

/-- No other operation changes the count of a state that stays open, whatever it copies. -/
theorem Op.liveHandles_apply {o : Op β} {w : World} {s : StateId} (copies : ¬ o.Converts)
    (isOpen : w.isOpen s) (still : (o.apply w).2.isOpen s) :
    (o.apply w).2.liveHandles s = w.liveHandles s := by
  unfold World.liveHandles
  by_cases touches : o.TouchesBooks
  · cases o with
    | anchor => exact absurd trivial copies
    | openEngine config =>
      rw [Op.apply, World.engine?_openEngine w config (World.lt_next_of_isOpen isOpen)]
    | closeEngine t =>
      simp only [World.isOpen, Op.apply, World.engine?_closeEngine] at still ⊢
      split at still
      · cases still
      · rename_i other
        rw [if_neg other]
    | _ => exact touches.elim
  · have same := congrArg (·.map (·.2.2)) ((Op.sameBooks w touches).books s)
    simp only [Option.map_map] at same
    exact congrArg (·.getD 0) same

namespace Value

variable {w : World}

/-- To make values of data converts objects and does nothing else, even if it fails on the way. -/
theorem meets_converting (anchored : w.Anchored) (data : List Datum) :
    (ofData data).Meets (fun _ w' => w'.Anchored ∧ w.Converted w') w := by
  have one {w : World} (anchored : w.Anchored) (d : Datum) :
      (ofDatum d).Meets (fun _ w' => w'.Anchored ∧ w.Converted w') w := by
    have anchors (r : Ref) : (w.anchor r).2.Anchored ∧ w.Converted (w.anchor r).2 :=
      ⟨World.Anchored.apply (o := .anchor r) anchored trivial, .anchor anchored r⟩
    cases d with
    | table r | function r | thread r | userdata r => exact ⟨trivial, anchors r⟩
    | _ => exact ⟨anchored, .refl w⟩
  unfold ofData
  induction data generalizing w with
  | nil => exact ⟨anchored, .refl w⟩
  | cons d rest ih =>
    rw [List.mapM_cons]
    refine Meets.bind_iff.mpr ((one anchored d).mono ?_)
    rintro (f | v) w₁ ⟨anchored₁, first⟩
    · exact ⟨anchored₁, first⟩
    · refine Meets.bind_iff.mpr ((ih anchored₁).mono ?_)
      rintro (f | values) w₂ ⟨anchored₂, second⟩
      · exact ⟨anchored₂, first.trans second⟩
      · exact ⟨anchored₂, first.trans second⟩

/-- To make data of values changes nothing, even if it fails on the way. -/
theorem meets_toData (s : StateId) (values : List Value) :
    (toData s values).Meets (fun _ w' => w' = w) w := by
  unfold toData
  induction values with
  | nil => exact rfl
  | cons v rest ih =>
    rw [List.mapM_cons]
    refine Meets.bind_iff.mpr (Meets.view_iff.mpr ?_)
    cases v.datum w s with
    | error e => exact rfl
    | ok d =>
      refine Meets.bind_iff.mpr (ih.mono ?_)
      rintro (f | data) _ rfl
      · exact rfl
      · exact rfl

/-- A conversion of several data that fails on the way releases what it has made. -/
theorem anchorsOf_failing {w' : World} (sound : w.Sound) (anchored : w.Anchored) {sc : Scope}
    {data : List Datum} {moments : List Moment} {f : Fault}
    (runs : Runs (.within sc (ofData data)) w moments (some (.error f)) w') (s : StateId) :
    w'.anchorsOf s = (sc.exit [] (sc.enter w)).anchorsOf s := by
  cases runs with
  | scopeDone inner rest =>
    rename_i w₁ _ _ result
    have converted := ((meets_converting (anchored.enter sc) data).passage (sound.enter sc) inner).2 _ rfl
    cases result with
    | ok values => cases rest
    | error f =>
      cases rest
      exact converted.2.anchorsOf_exit sc s

end Value

/-- How the counts of states go on from a point of a session. -/
structure World.Counting (w : World) : Prop where
  /-- The count of a state is that of its anchors, no two of which have one number. -/
  counted : ∀ s, w.liveHandles s = (w.anchorsOf s).length ∧ ((w.anchorsOf s).map (·.id)).Nodup
  /-- Whoever holds a handle on an object of an open state holds one of its anchors. -/
  held : ∀ s, w.isOpen s → w.heldAnchors s ⊆ (w.anchorsOf s).map (·.id)
  /-- To convert an object adds one. -/
  converts : ∀ r s, w.isOpen r.owner →
    (w.anchor r).2.liveHandles s = w.liveHandles s + if r.owner = s then 1 else 0
  /-- All else that is done, copies of values included, adds and removes nothing. -/
  copies : ∀ {β : Type} (o : Op β) s, ¬ o.Converts → w.isOpen s → (o.apply w).2.isOpen s →
    (o.apply w).2.liveHandles s = w.liveHandles s
  /-- What is released when a scope ends has been counted. -/
  releases : ∀ (sc : Scope) result s,
    (sc.exit result w).liveHandles s + w.releasing result s = w.liveHandles s
  /-- It is what belongs to no scope further out, and neither the result nor the world holds. -/
  stays : ∀ (sc : Scope) result s, ∀ a ∈ w.anchorsOf s,
    (a.id ∈ ((sc.exit result w).anchorsOf s).map (·.id) ↔
      (∃ n < w.level, a.scope = some n) ∨ a.isIn s result ∨ a.isIn s w.heldHandles)
  /-- A conversion of several data that fails leaves the count that there would be without it. -/
  fails : ∀ (sc : Scope) data moments f w',
    Runs (.within sc (Value.ofData data)) w moments (some (.error f)) w' →
    ∀ s, w'.liveHandles s = (sc.exit [] (sc.enter w)).liveHandles s
  /-- To convert values back changes nothing, whether it fails or not. -/
  reads : ∀ s values moments result w',
    Runs (Value.toData s values) w moments (some result) w' → w' = w

theorem World.Anchored.counting {w : World} (anchored : w.Anchored) (sound : w.Sound) :
    w.Counting where
  counted s := ⟨anchored.booked.liveHandles s, anchored.booked.nodup s⟩
  held s isOpen i member := by
    obtain ⟨h, held, rfl, rfl⟩ := mem_heldAnchors.mp member
    obtain ⟨a, there, on⟩ := (anchored.backs held).2 isOpen
    exact List.mem_map.mpr ⟨a, there, on⟩
  converts r s isOpen := liveHandles_anchor isOpen s
  copies o s copies isOpen still := Op.liveHandles_apply copies isOpen still
  releases sc result s := liveHandles_exit anchored sc result s
  stays sc result s a member := mem_anchorsOf_exit anchored sc result member
  fails sc data moments f w' runs s := by
    have left : (sc.exit [] (sc.enter w)).Booked := (anchored.booked.enter sc).exit sc []
    rw [left.liveHandles, (runs.booked anchored.booked).liveHandles,
      Value.anchorsOf_failing sound anchored runs]
  reads s values moments result w' runs :=
    ((Value.meets_toData s values).passage sound runs).2 _ rfl

/-- Between two steps an open state counts the objects that somebody holds, each of them once, and a
conversion that fails changes no count. At every point of the next step the count goes up with each
object that is converted, and down only with those that nobody holds any more. -/
theorem liveHandles_eq_heldAnchors {w : World} (tended : Tended w) :
    (∀ s, w.isOpen s → w.liveHandles s = (w.heldAnchors s).length) ∧
    (∀ (sc : Scope) data moments f w',
      Runs (.within sc (Value.ofData data)) w moments (some (.error f)) w' →
      ∀ s, w'.liveHandles s = w.liveHandles s) ∧
    ∀ step : Step, step.call.Tended w → ∀ moments outcome w',
      Runs step.program w moments outcome w' → w'.Counting := by
  refine ⟨fun s isOpen => tended.settled.liveHandles tended.anchored isOpen, ?_, ?_⟩
  · intro sc data moments f w' runs s
    have booked := runs.booked tended.anchored.booked
    rw [booked.liveHandles, tended.anchored.booked.liveHandles,
      Value.anchorsOf_failing tended.sound tended.anchored runs, tended.settled.anchorsOf_scope]
  · intro step own moments outcome w' runs
    have watched : Watched w' := .within tended step own runs
    exact watched.anchored.counting watched.sound

/-- A function is kept under two names and connected to a signal; then both names are let go of. -/
def connecting : List Step :=
  let f := Value.handle ⟨.function, ⟨0, 29⟩, 0⟩
  [⟨.openState .bare, []⟩, ⟨.createFunction 0 .echo, ["f"]⟩, ⟨.hold f, ["g"]⟩,
    ⟨.newObject .root "", ["o"]⟩, ⟨.connect 0 0 "destroyed" f, []⟩, ⟨.letGo "f", []⟩, ⟨.letGo "g", []⟩]

theorem liveHandles_connecting :
    (Step.play {} connecting).heldAnchors 0 = [0] ∧ (Step.play {} connecting).liveHandles 0 = 1 ∧
    (∃ moments f w', Runs (.within .values (Value.ofData [.function ⟨0, 29⟩, .failure default]))
      (Step.play {} connecting) moments (some (.error f)) w' ∧ w'.liveHandles 0 = 1) ∧
    (Step.play {} connecting).Counting := by
  have tended : Tended (Step.play {} connecting) := Tended.start.play (by decide +kernel)
  obtain ⟨counts, failing, during⟩ := liveHandles_eq_heldAnchors tended
  obtain ⟨isOpen, held⟩ : (Step.play {} connecting).isOpen 0 = true ∧
      (Step.play {} connecting).heldAnchors 0 = [0] := by decide +kernel
  have one : (Step.play {} connecting).liveHandles 0 = 1 := by rw [counts 0 isOpen, held]; rfl
  obtain ⟨moments, runs⟩ := Action.runs_of_run
    (.within .values (Value.ofData [.function ⟨0, 29⟩, .failure default])) (Step.play {} connecting)
  refine ⟨held, one, ⟨moments, .failed .caughtFailure, _, runs, ?_⟩, ?_⟩
  · exact (failing _ _ _ _ _ runs 0).trans one
  · exact during ⟨.takeLog, []⟩ (by decide +kernel) [] none _ (.stop _ _)

end ScriptBridge
