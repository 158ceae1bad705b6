import ScriptBridge.Proofs.Emissions
import ScriptBridge.Proofs.Parents

/-!
How an object is destroyed together with everything below it, while the receivers that are told of
it leave the tree alone: in which order that is done, and what is left.
-/

namespace ScriptBridge

open Relation (ReflTransGen TransGen)

/-- Two states of an object between which nothing has happened to its place in the tree, its
connections and its life; `g` may tell what else has to be the same. -/
structure HostObject.Resembles {γ : Type} (g : HostObject → γ) (a b : HostObject) : Prop where
  cls : a.cls = b.cls
  parent : a.parent = b.parent
  children : a.children = b.children
  connections : a.connections = b.connections
  destroyed : a.destroyed = b.destroyed
  rest : g a = g b

/-- Whether what is told of objects has nothing to do with the tree, connections and their life. -/
def HostObject.Blind {γ : Type} (g : HostObject → γ) : Prop :=
  ∀ (object : HostObject) parent children connections destroyed,
    g { object with parent := parent, children := children, connections := connections,
                    destroyed := destroyed } = g object

/-- What is left of an object when the objects of a list have been destroyed. -/
def HostObject.without (object : HostObject) (self : ObjectId) (gone : List ObjectId) :
    HostObject :=
  { object with
    parent := if self ∈ gone then none else object.parent.filter (· ∉ gone)
    children := if self ∈ gone then [] else object.children.filter (· ∉ gone)
    connections := if self ∈ gone then [] else object.connections
    destroyed := object.destroyed || decide (self ∈ gone) }

/-- What is left of an object when one more has been destroyed. -/
theorem HostObject.without_concat (object : HostObject) (i x : ObjectId) (gone : List ObjectId) :
    object.without i (gone ++ [x]) =
      { object.without i gone with
        parent := if x = i ∨ object.parent = some x then none else (object.without i gone).parent
        children := if x = i then [] else (object.without i gone).children.filter (· != x)
        connections := if x = i then [] else (object.without i gone).connections
        destroyed := (object.without i gone).destroyed || x == i } := by
  have filtered : object.children.filter (· ∉ gone ++ [x]) =
      (object.children.filter (· ∉ gone)).filter (· != x) := by
    rw [List.filter_filter]
    refine List.filter_congr fun c _ => ?_
    by_cases last : c = x <;> by_cases before : c ∈ gone <;> simp [last, before]
  simp only [without, filtered]
  by_cases here : x = i
  · simp [here]
  · have other : i ≠ x := fun h => here h.symm
    by_cases dead : i ∈ gone
    · simp [here, dead]
    · cases object.parent with
      | none => simp [here, dead, other]
      | some p => by_cases under : p = x <;> simp [here, dead, other, under, Option.filter_some]

namespace World

theorem object?_markDestroyed {w : World} {x : ObjectId} (alive : w.isDestroyed x = false)
    (i : ObjectId) : (w.markDestroyed x).object? i = (w.object? i).map fun object =>
      { object with
        connections := if x = i then [] else object.connections
        destroyed := object.destroyed || x == i } := by
  unfold markDestroyed
  rw [object?_modifyObject]
  by_cases self : x = i
  · subst self
    obtain ⟨object, there, old⟩ := object_of_alive alive
    simp [there, old]
  · have other : (x == i) = false := by simpa using self
    simp [self, other]

theorem object?_releaseChildren (w : World) (x i : ObjectId) :
    (w.releaseChildren x).object? i = (w.object? i).map fun object =>
      { object with
        parent := if i ∈ w.childrenOf x then none else object.parent
        children := if x = i then [] else object.children } := by
  have each (items : List ObjectId) (w : World) : (items.foldl (fun w child =>
      w.modifyObject child fun object => { object with parent := none }) w).object? i =
        (w.object? i).map fun object =>
          { object with parent := if i ∈ items then none else object.parent } := by
    induction items generalizing w with
    | nil => simp
    | cons child rest ih =>
      rw [List.foldl_cons, ih, object?_modifyObject]
      by_cases same : child = i
      · simp [same, Function.comp_def]
      · have other : i ≠ child := fun h => same h.symm
        simp [same, other]
  unfold releaseChildren
  rw [object?_modifyObject, each]
  by_cases self : x = i <;> simp [self, Function.comp_def]

/-- The children of an object that is destroyed are those that it had. -/
theorem retire_fst {w : World} {x : ObjectId} (rooted : w.parentOf x ≠ some x) :
    (w.retire x).1 = w.childrenOf x := by
  simp only [retire, childrenOf_detach, Tidy.parentOf_markDestroyed, Tidy.childrenOf_markDestroyed,
    if_neg rooted]

theorem object?_retire {w : World} {x : ObjectId} (alive : w.isDestroyed x = false)
    (rooted : w.parentOf x ≠ some x) (i : ObjectId) :
    (w.retire x).2.object? i = (w.object? i).map fun object =>
      { object with
        parent := if x = i ∨ i ∈ w.childrenOf x then none else object.parent
        children :=
          if x = i then [] else
          if w.parentOf x = some i then object.children.filter (· != x) else object.children
        connections := if x = i then [] else object.connections
        destroyed := object.destroyed || x == i } := by
  have released : ((w.markDestroyed x).detach x).childrenOf x = w.childrenOf x := retire_fst rooted
  change (((w.markDestroyed x).detach x).releaseChildren x).object? i = _
  rw [object?_releaseChildren, object?_detach, object?_markDestroyed alive, released,
    Tidy.parentOf_markDestroyed]
  simp only [Option.map_map]
  congr 1
  funext object
  by_cases self : x = i <;> by_cases child : i ∈ w.childrenOf x <;> simp [self, child]

variable {γ : Type} {g : HostObject → γ} {w v v' : World} {D : List ObjectId} {x : ObjectId}

/-- All objects are there that were, and are where they were. -/
def Untouched (g : HostObject → γ) (w w' : World) : Prop :=
  ∀ i object, w.object? i = some object →
    ∃ object', w'.object? i = some object' ∧ object'.Resembles g object

/-- A world in which the objects of a list have been destroyed, and nothing else has been done to
the tree. -/
def Without (g : HostObject → γ) (w : World) (gone : List ObjectId) (w' : World) : Prop :=
  ∀ i object, w.object? i = some object →
    ∃ object', w'.object? i = some object' ∧ object'.Resembles g (object.without i gone)

theorem Untouched.of_objects (same : v'.objects = v.objects) : v.Untouched g v' :=
  fun i object there => ⟨object, by simpa [object?, same] using there, ⟨rfl, rfl, rfl, rfl, rfl, rfl⟩⟩

namespace Without

theorem start (g : HostObject → γ) (w : World) : w.Without g [] w := by
  intro i object there
  have whole : object.without i [] = object := by
    obtain ⟨_, _, _, _, _, parent, _, _, _⟩ := object
    cases parent <;> simp [HostObject.without]
  exact ⟨object, there, by rw [whole]; exact ⟨rfl, rfl, rfl, rfl, rfl, rfl⟩⟩

theorem untouched (without : w.Without g D v) (same : v.Untouched g v') : w.Without g D v' := by
  intro i object there
  obtain ⟨before, found, first⟩ := without i object there
  obtain ⟨after, found', second⟩ := same i before found
  exact ⟨after, found', second.cls.trans first.cls, second.parent.trans first.parent,
    second.children.trans first.children, second.connections.trans first.connections,
    second.destroyed.trans first.destroyed, second.rest.trans first.rest⟩

section Retire

variable (without : w.Without g D v)
include without

theorem parentOf {i : ObjectId} {object : HostObject} (there : w.object? i = some object) :
    v.parentOf i = (object.without i D).parent := by
  obtain ⟨after, found, same⟩ := without i object there
  simp [World.parentOf, found, same.parent]

theorem childrenOf {i : ObjectId} {object : HostObject} (there : w.object? i = some object) :
    v.childrenOf i = (object.without i D).children := by
  obtain ⟨after, found, same⟩ := without i object there
  simp [World.childrenOf, found, same.children]

theorem isDestroyed {i : ObjectId} {object : HostObject} (there : w.object? i = some object) :
    v.isDestroyed i = (object.without i D).destroyed := by
  obtain ⟨after, found, same⟩ := without i object there
  exact (isDestroyed_of_object? found).trans same.destroyed

/-- One more object is destroyed: its children are those that are left, and it takes its place
among the destroyed ones. -/
theorem retire (forest : w.Forest) (blind : HostObject.Blind g)
    (alive : w.isDestroyed x = false) (standing : x ∉ D) :
    (v.retire x).1 = (w.childrenOf x).filter (· ∉ D) ∧ w.Without g (D ++ [x]) (v.retire x).2 := by
  obtain ⟨self, here, old⟩ := object_of_alive alive
  have aliveNow : v.isDestroyed x = false := by
    simp [without.isDestroyed here, HostObject.without, old, standing]
  have parent : v.parentOf x = self.parent.filter (· ∉ D) := by
    simp [without.parentOf here, HostObject.without, standing]
  have children : v.childrenOf x = (w.childrenOf x).filter (· ∉ D) := by
    rw [without.childrenOf here]
    simp [HostObject.without, standing, World.childrenOf, here]
  have own : w.parentOf x = self.parent := by simp [World.parentOf, here]
  have rooted : v.parentOf x ≠ some x := by
    intro loop
    rw [parent, Option.filter_eq_some_iff] at loop
    exact forest.not_own_parent x (own.trans loop.1)
  refine ⟨(retire_fst rooted).trans children, fun i object there => ?_⟩
  obtain ⟨before, found, same⟩ := without i object there
  have child : i ∈ v.childrenOf x ↔ object.parent = some x ∧ i ∉ D := by
    simp [children, forest.agree, World.parentOf, there]
  have joined : v.parentOf x = some i ↔ x ∈ object.children ∧ i ∉ D := by
    have member : x ∈ object.children ↔ self.parent = some i := by
      rw [← own, ← forest.agree, World.childrenOf, there, Option.map_some, Option.getD_some]
    simp [parent, Option.filter_eq_some_iff, member]
  have felled := object?_retire aliveNow rooted i
  rw [found, Option.map_some] at felled
  simp only [child, joined] at felled
  refine ⟨_, felled, ?_⟩
  rw [HostObject.without_concat]
  refine ⟨same.cls, ?_, ?_, ?_, ?_, ?_⟩
  · rw [same.parent]
    by_cases dead : i ∈ D <;> simp [HostObject.without, dead]
  · rw [same.children]
    by_cases left : x ∈ object.children ∧ i ∉ D
    · simp [left]
    · have absent : x ∉ (object.without i D).children := by
        by_cases dead : i ∈ D <;> simp_all [HostObject.without]
      have same : (object.without i D).children.filter (· != x) = (object.without i D).children :=
        List.filter_eq_self.mpr fun c member => bne_iff_ne.mpr fun same => absent (same ▸ member)
      simp only [left, if_false, same]
  · rw [same.connections]
  · rw [same.destroyed]
  · rw [blind, same.rest]
    exact (blind (object.without i D) ..).symm

end Retire

/-- What still stands has what it had. -/
theorem standing (without : w.Without g D v) (alive : w.isDestroyed x = false) (stands : x ∉ D) :
    v.isDestroyed x = false ∧ v.tells x = w.tells x ∧ v.connections x = w.connections x := by
  obtain ⟨object, there, old⟩ := object_of_alive alive
  obtain ⟨after, found, same⟩ := without x object there
  refine ⟨?_, ?_, ?_⟩
  · simp [isDestroyed_of_object? found, same.destroyed, HostObject.without, old, stands]
  · simp [World.tells, World.classOf, found, there, same.cls, HostObject.without]
  · simp [World.connections, wires?, HostObject.wires, found, there, same.connections,
      HostObject.without, stands]

end Without

end World

variable {o : ObjectId} {v v₁ w w' : World} {told : List Moment}

/-- An object tells of its destruction: whoever is connected is handed the signal. -/
def Told (o : ObjectId) (v : World) (told : List Moment) (v₁ : World) : Prop :=
  ∃ outcomes later result v₂,
    told = .op (.view (·.connectionsOf o "destroyed()")) v.openScope :: later ∧
    Emission (Asked o []) o "destroyed()" v.openScope outcomes later result v₂ ∧
    v₁ = v₂.closeScope []

theorem announce_iff : Runs (announce o) v told (some (.ok ())) v₁ ↔ Told o v told v₁ := by
  constructor
  · intro runs
    obtain ⟨x, attempted⟩ := runs.of_discard
    obtain ⟨ended, v₂, emitting, caught, rfl⟩ := attempted.of_attempt
    obtain ⟨outcomes, later, rfl, emission⟩ :=
      (runs_emitSignal (Fault.ne_exhausted_of_caught caught)).mp emitting
    exact ⟨outcomes, later, ended, v₂, rfl, emission, by cases ended <;> rfl⟩
  · rintro ⟨outcomes, later, result, v₂, rfl, emission, rfl⟩
    have ended := emission.result
    obtain ⟨outcome, rfl⟩ : ∃ outcome : Except BridgeError Unit, result = outcome.mapError .failed :=
      ⟨_, ended⟩
    have mild : outcome.mapError Fault.failed ≠ .error .exhausted := by cases outcome <;> simp [Except.mapError]
    have emitting := (runs_emitSignal mild).mpr ⟨outcomes, later, rfl, emission⟩
    have attempted : Runs (.attempt (emitSignal o "destroyed()" [])) v
        (.op (.view (·.connectionsOf o "destroyed()")) v.openScope :: later) (some (.ok outcome))
        (v₂.closeScope []) := by
      rw [← List.append_nil (_ :: later)]
      cases outcome <;> exact .scopeDone emitting (.pure _ _)
    rw [← List.append_nil (_ :: later)]
    exact attempted.sequence (.pure () _)

/-- Objects are destroyed one after another, each as it stands when its turn comes: it is alive, has
the connections that it had in the world `w`, tells of its destruction if its class has a signal for
that, and leaves the tree. -/
inductive Razes (w : World) : List ObjectId → World → List Moment → World → Prop where
  | none (v : World) : Razes w [] v [] v
  | next {x : ObjectId} {rest : List ObjectId} {v v₁ v' : World} {told later : List Moment}
      (alive : v.isDestroyed x = false) (connected : v.connections x = w.connections x)
      (telling : if w.tells x then Told x v told v₁ else told = [] ∧ v₁ = v)
      (others : Razes w rest (v₁.retire x).2 later v') :
      Razes w (x :: rest) v
        (.request (.destroy x) v :: .op (.view (·.isDestroyed x)) v :: .op (.view (·.tells x)) v ::
          (told ++ .op (.retire x) v₁ :: later)) v'

theorem Razes.append {a b : List ObjectId} {first later : List Moment} (before : Razes w a v first v₁)
    (after : Razes w b v₁ later w') : Razes w (a ++ b) v (first ++ later) w' := by
  induction before with
  | none => exact after
  | next alive connected telling others ih =>
    have whole := Razes.next alive connected telling (ih after)
    simpa using whole

section Discreet

variable {γ : Type} {g : HostObject → γ} {x : ObjectId} {D S : List ObjectId}
  {during moments : List Moment}

/-- Wherever in a run the receivers of objects that are being destroyed are handed the signal, they
leave all objects where they are. -/
def Discreet (g : HostObject → γ) (w : World) (S : List ObjectId) (moments : List Moment) : Prop :=
  ∀ x ∈ S, ∀ c ∈ w.connectionsOf x "destroyed()", ∀ gone v turn outcome v',
    w.Without g gone v → turn <:+: moments → Asked x [] c v turn outcome v' → v.Untouched g v'

theorem Discreet.part {S' : List ObjectId} {part : List Moment} (discreet : Discreet g w S moments)
    (fewer : S' ⊆ S) (within : part <:+: moments) : Discreet g w S' part :=
  fun x member c connected gone v turn outcome v' without turning =>
    discreet x (fewer member) c connected gone v turn outcome v' without (turning.trans within)

theorem World.objects_openScope (w : World) : w.openScope.objects = w.objects :=
  (World.Alike.enter .values w).objects

theorem World.connectionsOf_openScope (same : v.connections x = w.connections x) (signal : String) :
    v.openScope.connectionsOf x signal = w.connectionsOf x signal := by
  rw [connectionsOf_eq, connectionsOf_eq, ← same]
  simp [connections, wires?, object?, objects_openScope]

theorem Deliveries.discreet {outcomes : List (Connection × Except BridgeError Unit)}
    (deliveries : Deliveries (Asked x []) v outcomes during v₁) (discreet : Discreet g w [x] during)
    (receivers : ∀ c ∈ outcomes.map Prod.fst, c ∈ w.connectionsOf x "destroyed()")
    (without : w.Without g D v) : w.Without g D v₁ := by
  induction deliveries with
  | nil => exact without
  | cons first rest ih =>
    have same := discreet x List.mem_cons_self _ (receivers _ List.mem_cons_self) D _ _ _ _ without
      (List.prefix_append _ _).isInfix first
    exact ih (discreet.part (fun _ => id) (List.suffix_append _ _).isInfix)
      (fun c member => receivers c (List.mem_cons_of_mem _ member)) (without.untouched same)

/-- When an object has told of its destruction, the tree is as it was before. -/
theorem Told.discreet (tells : Told x v told v₁) (discreet : Discreet g w [x] told)
    (connected : v.connections x = w.connections x) (without : w.Without g D v) :
    w.Without g D v₁ := by
  obtain ⟨outcomes, later, result, v₂, rfl, emission, rfl⟩ := tells
  have receivers : outcomes.map Prod.fst = w.connectionsOf x "destroyed()" :=
    emission.receivers.trans (World.connectionsOf_openScope connected _)
  have told := emission.deliveries.discreet
    (discreet.part (fun _ => id) (List.suffix_cons _ _).isInfix) (fun c member => receivers ▸ member)
    (without.untouched (.of_objects (World.objects_openScope v)))
  exact told.untouched (.of_objects (World.Alike.exit .values [] v₂).objects)

/-- However far a destruction has got, the receivers that are told of it come to an end, and leave all
objects where they are. -/
def Obliging (g : HostObject → γ) (w : World) (S : List ObjectId) : Prop :=
  ∀ x ∈ S, ∀ c ∈ w.connectionsOf x "destroyed()", ∀ gone v, w.Without g gone v →
    (∃ turn outcome v', Asked x [] c v turn outcome v') ∧
      ∀ turn outcome v', Asked x [] c v turn outcome v' → v.Untouched g v'

theorem Obliging.discreet (obliging : Obliging g w S) (moments : List Moment) :
    Discreet g w S moments :=
  fun x member c connected gone v turn outcome v' without _ asked =>
    (obliging x member c connected gone v without).2 turn outcome v' asked

theorem Obliging.part {S' : List ObjectId} (obliging : Obliging g w S) (fewer : S' ⊆ S) :
    Obliging g w S' :=
  fun x member => obliging x (fewer member)

theorem Obliging.deliveries (obliging : Obliging g w [x]) {receivers : List Connection}
    (connected : ∀ c ∈ receivers, c ∈ w.connectionsOf x "destroyed()") (without : w.Without g D v) :
    ∃ outcomes during v', outcomes.map Prod.fst = receivers ∧
      Deliveries (Asked x []) v outcomes during v' := by
  induction receivers generalizing v with
  | nil => exact ⟨[], [], v, rfl, .nil v⟩
  | cons c rest ih =>
    obtain ⟨⟨turn, outcome, v₁, asked⟩, leaves⟩ :=
      obliging x List.mem_cons_self c (connected c List.mem_cons_self) D v without
    obtain ⟨outcomes, during, v', receivers, deliveries⟩ :=
      ih (fun c member => connected c (List.mem_cons_of_mem _ member))
        (without.untouched (leaves turn outcome v₁ asked))
    exact ⟨(c, outcome) :: outcomes, _, v', by simp [receivers], .cons asked deliveries⟩

theorem Obliging.tells (obliging : Obliging g w [x]) (connected : v.connections x = w.connections x)
    (without : w.Without g D v) : ∃ told v₁, Told x v told v₁ := by
  have receivers := World.connectionsOf_openScope connected "destroyed()"
  obtain ⟨outcomes, during, v', same, deliveries⟩ := obliging.deliveries
    (fun c member => receivers ▸ member) (without.untouched (.of_objects (World.objects_openScope v)))
  exact ⟨_, _, outcomes, during, _, v', rfl, ⟨same, deliveries, rfl⟩, rfl⟩

variable (tidy : w.Tidy) (blind : HostObject.Blind g)

/-- What is neither gone nor the next to go will not be gone then. -/
theorem apart_append {A B D : List ObjectId} (once : (A ++ B).Nodup) (apart : ∀ i ∈ A ++ B, i ∉ D) :
    ∀ i ∈ B, i ∉ D ++ A := by
  intro i member gone
  rcases List.mem_append.mp gone with before | now
  · exact apart i (List.mem_append_right _ member) before
  · exact (List.nodup_append.mp once).2.2 i now i member rfl

/-- Objects that are destroyed in turn, each with all that is below it. -/
theorem Runs.razes_each {items : List ObjectId}
    (each : ∀ c ∈ items, ∀ {D v during v'}, (∀ i ∈ c :: w.descendants c, i ∉ D) →
      Discreet g w (c :: w.descendants c) during → w.Without g D v →
      Runs (.ask (.destroy c)) v during (some (.ok ())) v' →
      Razes w (c :: w.descendants c) v during v' ∧ w.Without g (D ++ c :: w.descendants c) v')
    (once : (items.flatMap fun c => c :: w.descendants c).Nodup)
    (apart : ∀ i ∈ items.flatMap fun c => c :: w.descendants c, i ∉ D)
    (discreet : Discreet g w (items.flatMap fun c => c :: w.descendants c) during)
    (without : w.Without g D v)
    (runs : Runs (items.forM fun c => .ask (.destroy c)) v during (some (.ok ())) v₁) :
    Razes w (items.flatMap fun c => c :: w.descendants c) v during v₁ ∧
      w.Without g (D ++ items.flatMap fun c => c :: w.descendants c) v₁ := by
  induction items generalizing D v during with
  | nil =>
    obtain ⟨rfl, -, rfl⟩ := Runs.of_pure runs
    exact ⟨.none _, by simpa using without⟩
  | cons c rest ih =>
    obtain ⟨⟨⟩, v₂, first, later, rfl, here, going⟩ := Runs.of_bind runs
    rw [List.flatMap_cons] at once apart discreet ⊢
    have onceRest := (List.nodup_append.mp once).2.1
    obtain ⟨felled, without₂⟩ := each c (.head _)
      (fun i member => apart i (List.mem_append_left _ member))
      (discreet.part (List.subset_append_left _ _) (List.prefix_append _ _).isInfix) without here
    obtain ⟨others, without'⟩ := ih (fun c member => each c (.tail _ member)) onceRest
      (apart_append once apart)
      (discreet.part (List.subset_append_right _ _) (List.suffix_append _ _).isInfix) without₂ going
    exact ⟨felled.append others, by rwa [← List.append_assoc]⟩

include tidy

/-- What has a parent is alive. -/
theorem World.Tidy.alive_of_parent {p : ObjectId} (child : w.ChildOf x p) :
    w.isDestroyed x = false := by
  cases dead : w.isDestroyed x with
  | false => rfl
  | true =>
    have root := (tidy.retired x dead).1
    rw [child] at root
    cases root

include blind

/-- An object leaves the tree before anything below it does: all its children become roots. -/
theorem World.Without.retire_first (alive : w.isDestroyed x = false)
    (apart : ∀ i ∈ x :: w.descendants x, i ∉ D) (without : w.Without g D v) :
    (v.retire x).1 = w.childrenOf x ∧ w.Without g (D ++ [x]) (v.retire x).2 := by
  obtain ⟨left, without'⟩ := without.retire tidy.forest blind alive (apart x List.mem_cons_self)
  refine ⟨left.trans (List.filter_eq_self.mpr fun c child => ?_), without'⟩
  have below : c ∈ w.descendants x :=
    tidy.forest.mem_descendants.mpr (.single ((tidy.forest.agree x c).mp child))
  simpa using apart c (.tail _ below)

/-- An object is destroyed with all that is below it, in pre-order. -/
theorem Runs.razes (alive : w.isDestroyed x = false) (apart : ∀ i ∈ x :: w.descendants x, i ∉ D)
    (discreet : Discreet g w (x :: w.descendants x) during) (without : w.Without g D v)
    (runs : Runs (.ask (.destroy x)) v during (some (.ok ())) v₁) :
    Razes w (x :: w.descendants x) v during v₁ ∧ w.Without g (D ++ x :: w.descendants x) v₁ := by
  induction x using tidy.forest.founded_down.induction generalizing D v during v₁ with
  | _ x ih =>
  obtain ⟨aliveNow, tells, connected⟩ := without.standing alive (apart x List.mem_cons_self)
  obtain ⟨inner, rfl, destroying⟩ := runs.of_destroy
  obtain ⟨told, v₂, later, rfl, telling, children⟩ := destroying.of_destroyObject aliveNow
  rw [tells, announce_iff] at telling
  have without₂ : w.Without g D v₂ := by
    split at telling
    · refine telling.discreet (discreet.part (by simp) ?_) connected without
      exact List.infix_cons (List.infix_cons (List.infix_cons (List.prefix_append told _).isInfix))
    · rwa [telling.2]
  obtain ⟨left, without₃⟩ := World.Without.retire_first tidy blind alive apart without₂
  rw [left] at children
  have below := tidy.forest.descendants_eq x
  have onceBelow := tidy.forest.nodup_subtree x
  rw [below] at apart discreet onceBelow ⊢
  have apart' := apart_append (A := [x]) onceBelow apart
  have discreet' : Discreet g w ((w.childrenOf x).flatMap fun c => c :: w.descendants c) later :=
    discreet.part (List.subset_cons_self _ _) (List.infix_cons (List.infix_cons (List.infix_cons
      ((List.suffix_cons _ later).trans (List.suffix_append told _)).isInfix)))
  have each {c : ObjectId} (child : c ∈ w.childrenOf x) := (tidy.forest.agree x c).mp child
  obtain ⟨others, without'⟩ := Runs.razes_each
    (fun c child => ih c (each child) (tidy.alive_of_parent (each child))) onceBelow.of_cons apart'
    discreet' without₃ children
  exact ⟨.next aliveNow connected telling others, by simpa using without'⟩

omit tidy blind in
/-- Destructions in turn come to an end if each of them does. -/
theorem Ends.destroy_each {items : List ObjectId}
    (each : ∀ c ∈ items, ∀ {D v}, (∀ i ∈ c :: w.descendants c, i ∉ D) → w.Without g D v →
      ∃ v', Ends (.ask (.destroy c)) v (.ok ()) v' ∧ w.Without g (D ++ c :: w.descendants c) v')
    (once : (items.flatMap fun c => c :: w.descendants c).Nodup)
    (apart : ∀ i ∈ items.flatMap fun c => c :: w.descendants c, i ∉ D)
    (without : w.Without g D v) :
    ∃ v', Ends (items.forM fun c => .ask (.destroy c)) v (.ok ()) v' := by
  induction items generalizing D v with
  | nil => exact ⟨v, Ends.pure_iff.mpr ⟨rfl, rfl⟩⟩
  | cons c rest ih =>
    rw [List.flatMap_cons] at once apart
    have onceRest := (List.nodup_append.mp once).2.1
    obtain ⟨v₁, first, without₁⟩ :=
      each c (.head _) (fun i member => apart i (List.mem_append_left _ member)) without
    obtain ⟨v', others⟩ := ih (fun c member => each c (.tail _ member)) onceRest
      (apart_append once apart) without₁
    exact ⟨v', Ends.then_ok first others⟩

omit tidy blind in
/-- What makes up a destruction of an object that is alive. -/
theorem Ends.of_parts (alive : v.isDestroyed x = false)
    (telling : if v.tells x then Ends (announce x) v (.ok ()) v₁ else v₁ = v)
    (children : Ends ((v₁.retire x).1.forM fun child => .ask (.destroy child)) (v₁.retire x).2
      (.ok ()) w') : Ends (.ask (.destroy x)) v (.ok ()) w' := by
  refine Ends.request_iff.mpr ⟨_, v, .program _ _, .inl ⟨(), w', ?_, Ends.pure_iff.mpr ⟨rfl, rfl⟩⟩⟩
  refine Ends.perform_bind_iff.mpr ?_
  rw [show (Op.apply (.view (·.isDestroyed x)) v).1 = false from alive]
  refine Ends.perform_bind_iff.mpr ?_
  have retiring : Ends (do
      let children ← Action.perform (.retire x)
      children.forM fun child => .ask (.destroy child)) v₁ (.ok ()) w' :=
    Ends.perform_bind_iff.mpr children
  change Ends (if v.tells x = true then _ else _) v (.ok ()) w'
  split at telling
  · rename_i tells
    rw [if_pos tells]
    exact Ends.then_ok telling retiring
  · rename_i silent
    rw [if_neg silent]
    exact telling ▸ retiring

/-- Where the receivers come to an end, a destruction does. -/
theorem Ends.destroy (alive : w.isDestroyed x = false) (apart : ∀ i ∈ x :: w.descendants x, i ∉ D)
    (obliging : Obliging g w (x :: w.descendants x)) (without : w.Without g D v) :
    ∃ v', Ends (.ask (.destroy x)) v (.ok ()) v' := by
  induction x using tidy.forest.founded_down.induction generalizing D v with
  | _ x ih =>
  obtain ⟨aliveNow, tells, connected⟩ := without.standing alive (apart x List.mem_cons_self)
  have obliged : Obliging g w [x] := obliging.part (by simp)
  obtain ⟨v₁, telling, without₁⟩ :
      ∃ v₁, (if v.tells x then Ends (announce x) v (.ok ()) v₁ else v₁ = v) ∧ w.Without g D v₁ := by
    split
    · obtain ⟨told, v₁, telling⟩ := obliged.tells connected without
      exact ⟨v₁, ⟨told, announce_iff.mpr telling⟩,
        telling.discreet (obliged.discreet told) connected without⟩
    · exact ⟨v, rfl, without⟩
  obtain ⟨left, without₂⟩ := World.Without.retire_first tidy blind alive apart without₁
  have onceBelow := tidy.forest.nodup_subtree x
  rw [tidy.forest.descendants_eq x] at apart obliging onceBelow
  obtain ⟨v', children⟩ := Ends.destroy_each (fun c child {D v} apart' without' => by
      have parent := (tidy.forest.agree x c).mp child
      have alive' := tidy.alive_of_parent parent
      have obliging' : Obliging g w (c :: w.descendants c) := obliging.part fun i member =>
        List.mem_cons_of_mem _ (List.mem_flatMap.mpr ⟨c, child, member⟩)
      obtain ⟨v', during, runs⟩ := ih c parent alive' apart' obliging' without'
      exact ⟨v', ⟨during, runs⟩,
        (Runs.razes tidy blind alive' apart' (obliging'.discreet during) without' runs).2⟩)
    onceBelow.of_cons (apart_append (A := [x]) onceBelow apart) without₂
  exact ⟨v', Ends.of_parts aliveNow telling (by rwa [left])⟩

end Discreet

section Still

/-- Whether a behaviour leaves all objects as they are, and asks for nothing. -/
def Behaviour.still : Behaviour → Bool
  | .destroy | .put _ | .putEmit .. | .emit _ | .rename | .setParent => false
  | _ => true

/-- Whether a receiver is a slot that leaves all objects as they are. -/
def Receiver.still : Receiver → Bool
  | .slot _ _ body _ => body.still
  | .script .. => false

theorem Behaviour.objects_of_still {b : Behaviour} (still : b.still = true) {signature : String}
    {args : List HostValue} {result : Except Fault HostValue}
    (ends : Ends (b.run o signature args) w result w') : w'.objects = w.objects := by
  have started := Ends.perform_bind_iff.mp ends
  change Ends _ w result w' at started
  cases b with
  | destroy | put | putEmit | emit | rename | setParent => cases still
  | nothing | const | arg | list | multiply | repeatText | self =>
    obtain ⟨-, rfl⟩ := Ends.pure_iff.mp started
    rfl
  | get | objectName | parent | findChild =>
    have looked := Ends.view_bind_iff.mp started
    obtain ⟨-, rfl⟩ := Ends.pure_iff.mp looked
    rfl
  | fail =>
    obtain ⟨-, rfl⟩ := Ends.throw_iff.mp started
    rfl
  | log =>
    rcases Ends.bind_iff.mp (Ends.view_bind_iff.mp started) with
      ⟨shown, w₁, returned, noting⟩ | ⟨e, -, failed⟩
    · obtain ⟨-, rfl⟩ := Ends.ofExcept_iff.mp returned
      have noted := Ends.perform_bind_iff.mp (Ends.view_bind_iff.mp noting)
      obtain ⟨-, rfl⟩ := Ends.pure_iff.mp noted
      rfl
    · obtain ⟨-, rfl⟩ := Ends.ofExcept_iff.mp failed
      rfl

/-- Slots that leave all objects as they are come to an end, and are no obstacle. -/
theorem Obliging.of_still {γ : Type} (g : HostObject → γ) {S : List ObjectId}
    (still : ∀ x ∈ S, ∀ c ∈ w.connectionsOf x "destroyed()", c.receiver.still = true) :
    Obliging g w S := by
  intro x member c connected gone v _
  have still := still x member c connected
  obtain ⟨id, signal, script | ⟨target, signature, body, arity⟩⟩ := c
  · cases still
  have still : body.still = true := still
  constructor
  · have calm : body.Calm := by
      cases body with
      | destroy | put | putEmit | emit => cases still
      | _ => trivial
    obtain ⟨result, w₁, ⟨inner, runs⟩, mild, -⟩ := Returns.deliver (w := v.openScope)
      (c := ⟨id, signal, .slot target signature body arity⟩) (.inr calm) x [] (by
        intro b topples
        cases body with
        | destroy => cases still
        | _ => cases topples)
    rcases result with (e | _) | ⟨⟨⟩⟩
    · exact ⟨_, .error e, _, inner, w₁, rfl, runs, rfl⟩
    · exact absurd rfl mild
    · exact ⟨_, .ok (), _, inner, w₁, rfl, runs, rfl⟩
  · rintro turn outcome v' ⟨inner, w₁, rfl, delivered, rfl⟩
    have called : w₁.objects = v.openScope.objects := by
      have looked := Ends.view_bind_iff.mp ⟨inner, delivered⟩
      split at looked
      · rw [(Ends.pure_iff.mp looked).2]
      · rcases Ends.bind_iff.mp looked with ⟨value, w₂, running, done⟩ | ⟨e, -, failed⟩
        · rw [(Ends.pure_iff.mp done).2]
          exact Behaviour.objects_of_still still running
        · exact Behaviour.objects_of_still still failed
    have closed : (w₁.closeScope []).objects = w₁.objects :=
      (World.Alike.exit .values [] w₁).objects
    exact .of_objects (closed.trans (called.trans (World.objects_openScope v)))

end Still

/-- What a class must have for its objects to tell of their destruction. -/
theorem World.tells_iff (w : World) (o : ObjectId) : w.tells o = true ↔
    ∃ m ∈ (w.classOf o).members, m.kind = .signal ∧ m.text = "destroyed()" := by
  have wanted : Signature.normalize "destroyed()" = "destroyed()" := by decide +kernel
  simp [tells, Class.signal?, Class.member?, wanted, List.find?_isSome]

/-- A destruction that has been refused has done nothing to an object that was destroyed before. -/
theorem unchanged_of_refused {during : List Moment} {f : Fault} (dead : w.isDestroyed o = true)
    (runs : Runs (.ask (.destroy o)) w during (some (.error f)) w') : w' = w := by
  change Runs (.request (.destroy o) .pure) w during _ w' at runs
  cases runs with
  | requestDone begins inner rest => cases rest
  | requestFailed begins inner =>
    obtain ⟨rfl, rfl | rfl⟩ := begins.plain trivial
    · obtain ⟨_, rfl, looked⟩ := inner.of_perform
      rw [show (Op.apply (.view (·.isDestroyed o)) _).1 = true from dead] at looked
      obtain ⟨-, none, -⟩ := looked.of_pure
      cases none
    · cases inner
      rfl

/-- What is left when an object has been destroyed with all that is below it: those have no place in
the tree and no connections any more, the parent of the object has one child less, and all others
are as they were. -/
structure Uprooted {γ : Type} (g : HostObject → γ) (w : World) (o : ObjectId) (w' : World) :
    Prop where
  subtree : ∀ i ∈ o :: w.descendants o, w.isDestroyed i = false ∧ w'.isDestroyed i = true ∧
    w'.parentOf i = none ∧ w'.childrenOf i = [] ∧ w'.connections i = []
  former : ∀ p object, w.parentOf o = some p → w.object? p = some object →
    ∃ object', w'.object? p = some object' ∧
      object'.Resembles g { object with children := object.children.filter (· != o) }
  others : ∀ i object, i ∉ o :: w.descendants o → w.parentOf o ≠ some i →
    w.object? i = some object → ∃ object', w'.object? i = some object' ∧ object'.Resembles g object
  rest : ∀ i object, w.object? i = some object →
    ∃ object', w'.object? i = some object' ∧ object'.cls = object.cls ∧ g object' = g object

theorem World.Without.uprooted {γ : Type} {g : HostObject → γ} (tidy : w.Tidy)
    (blind : HostObject.Blind g) (alive : w.isDestroyed o = false)
    (without : w.Without g (o :: w.descendants o) w') : Uprooted g w o w' := by
  have forest := tidy.forest
  have upward {i p : ObjectId} (child : w.ChildOf i p) (member : p ∈ o :: w.descendants o) :
      i ∈ w.descendants o :=
    forest.mem_descendants.mpr (.head' child (forest.mem_subtree.mp member))
  -- Only the object itself can have a parent outside the subtree.
  have outside {i : ObjectId} {object : HostObject} (there : w.object? i = some object)
      (out : i ∉ o :: w.descendants o) : ∃ object', w'.object? i = some object' ∧
        object'.Resembles g { object with children := object.children.filter (· != o) } := by
    obtain ⟨after, found, same⟩ := without i object there
    have parent : (object.without i (o :: w.descendants o)).parent = object.parent := by
      simp only [HostObject.without, if_neg out]
      cases up : object.parent with
      | none => rfl
      | some p =>
        have child : w.ChildOf i p := by simp [World.ChildOf, World.parentOf, there, up]
        have above : p ∉ o :: w.descendants o := fun member => out (.tail _ (upward child member))
        rw [Option.filter_some, if_pos (decide_eq_true above)]
    have children : (object.without i (o :: w.descendants o)).children =
        object.children.filter (· != o) := by
      simp only [HostObject.without, if_neg out]
      refine List.filter_congr fun c member => ?_
      have child : w.ChildOf c i := (forest.agree i c).mp (by simpa [World.childrenOf, there])
      have inside : c ∈ o :: w.descendants o ↔ c = o := by
        refine ⟨fun member => ?_, fun same => same ▸ .head _⟩
        rcases (forest.mem_subtree.mp member).cases_head with same | ⟨p, parent, path⟩
        · exact same
        · obtain rfl : i = p := Option.some.inj (Eq.trans (Eq.symm child) parent)
          exact absurd (forest.mem_subtree.mpr path) out
      by_cases self : c = o
      · simp [self]
      · have left : c ∉ o :: w.descendants o := mt inside.mp self
        rw [decide_eq_true left, bne_iff_ne.mpr self]
    refine ⟨after, found, same.cls, same.parent.trans parent, same.children.trans children, ?_, ?_,
      same.rest.trans ((blind object ..).trans (blind object object.parent ..).symm)⟩
    · simp [same.connections, HostObject.without, out]
    · simp [same.destroyed, HostObject.without, out]
  refine ⟨fun i member => ?_, fun p object up there => ?_, fun i object out stranger there => ?_,
    fun i object there => ?_⟩
  · have aliveHere : w.isDestroyed i = false := by
      rcases List.mem_cons.mp member with rfl | below
      · exact alive
      · obtain ⟨p, child, -⟩ := TransGen.head'_iff.mp (forest.mem_descendants.mp below)
        exact tidy.alive_of_parent child
    obtain ⟨object, there, -⟩ := World.object_of_alive aliveHere
    obtain ⟨after, found, same⟩ := without i object there
    refine ⟨aliveHere, ?_, ?_, ?_, ?_⟩
    · simp [without.isDestroyed there, HostObject.without, member]
    · simp [without.parentOf there, HostObject.without, member]
    · simp [without.childrenOf there, HostObject.without, member]
    · simp [World.connections, World.wires?, HostObject.wires, found, same.connections,
        HostObject.without, member]
  · exact outside there fun member =>
      forest.rooted o (.head' up (forest.mem_subtree.mp member))
  · obtain ⟨object', found, same⟩ := outside there out
    rw [forest.filter_children there stranger] at same
    exact ⟨object', found, same⟩
  · obtain ⟨after, found, same⟩ := without i object there
    exact ⟨after, found, same.cls, same.rest.trans (blind ..)⟩

/-- Where the tree is tidy, a destruction of an object that is alive destroys the object and then,
in pre-order, all that is below it: each once, each told of while it still has its connections,
provided that the receivers leave all objects where they are. It comes to an end if they do. To
destroy what is destroyed does nothing. -/
theorem World.Tidy.destroy_law (tidy : w.Tidy) (o : ObjectId) :
    (∀ x, w.tells x = true ↔
      ∃ m ∈ (w.classOf x).members, m.kind = .signal ∧ m.text = "destroyed()") ∧
    (∀ x, w.descendants x = (w.childrenOf x).flatMap fun c => c :: w.descendants c) ∧
    (∀ x, x ∈ w.descendants o ↔ TransGen w.ChildOf x o) ∧ (o :: w.descendants o).Nodup ∧
    (w.isDestroyed o = true → ∀ during result w',
      Runs (.ask (.destroy o)) w during (some result) w' →
        w' = w ∧ (result = .ok () ∨ result = .error .exhausted)) ∧
    (w.isDestroyed o = false → ∀ {γ : Type} (g : HostObject → γ), HostObject.Blind g →
      (∀ during result w', Runs (.ask (.destroy o)) w during (some result) w' →
        Discreet g w (o :: w.descendants o) during → result = .error .exhausted ∨
          result = .ok () ∧ Razes w (o :: w.descendants o) w during w' ∧ Uprooted g w o w') ∧
      (Obliging g w (o :: w.descendants o) →
        ∃ during w', Runs (.ask (.destroy o)) w during (some (.ok ())) w')) := by
  refine ⟨w.tells_iff, tidy.forest.descendants_eq, fun x => tidy.forest.mem_descendants,
    tidy.forest.nodup_subtree o, fun dead during result w' runs => ?_, fun alive γ g blind =>
      ⟨fun during result w' runs discreet => ?_, fun obliging => ?_⟩⟩
  · cases result with
    | ok => exact ⟨idle_of_destroyed dead runs, .inl rfl⟩
    | error f => exact ⟨unchanged_of_refused dead runs, .inr (congrArg _ (exhausted_of_destroy runs))⟩
  · cases result with
    | error f => exact .inl (congrArg _ (exhausted_of_destroy runs))
    | ok =>
      obtain ⟨felled, without⟩ := Runs.razes tidy blind alive (D := []) (by simp) discreet
        (.start g w) runs
      exact .inr ⟨rfl, felled, without.uprooted tidy blind alive⟩
  · obtain ⟨w', during, runs⟩ :=
      Ends.destroy tidy blind alive (D := []) (by simp) obliging (.start g w)
    exact ⟨during, w', runs⟩

/-- An object with two children, the first of which has a child, below another object. The first two
of them are watched by a slot. -/
def estate : List Step := [
  ⟨.newObject .root "top", ["top"]⟩, ⟨.newObject .root "a", ["a"]⟩,
  ⟨.newObject .root "b", ["b"]⟩, ⟨.newObject .root "c", ["c"]⟩, ⟨.newObject .root "d", ["d"]⟩,
  ⟨.newObject Samples.sink "s", ["s"]⟩, ⟨.setParent 1 (some 0), []⟩, ⟨.setParent 2 (some 1), []⟩,
  ⟨.setParent 4 (some 1), []⟩, ⟨.setParent 3 (some 2), []⟩,
  ⟨.connectSlot 1 "destroyed" 5 "ping", []⟩, ⟨.connectSlot 2 "destroyed" 5 "ping", []⟩]

theorem destroy_law_estate : ∃ during w', (Step.play {} estate).Tidy ∧
    Runs (.ask (.destroy 1)) (Step.play {} estate) during (some (.ok ())) w' ∧
    Razes (Step.play {} estate) [1, 2, 3, 4] (Step.play {} estate) during w' ∧
    Uprooted (fun object => (object.name, object.values, object.owned)) (Step.play {} estate) 1 w' := by
  obtain ⟨moments, session⟩ := Session.start.play estate
  have tidy := (Reaches.of_session session).tidy
  obtain ⟨alive, below, still⟩ : (Step.play {} estate).isDestroyed 1 = false ∧
      (Step.play {} estate).descendants 1 = [2, 3, 4] ∧
      ∀ x ∈ [1, 2, 3, 4], ∀ c ∈ (Step.play {} estate).connectionsOf x "destroyed()",
        c.receiver.still = true := by
    decide +kernel
  obtain ⟨law, ends⟩ := (tidy.destroy_law 1).2.2.2.2.2 alive
    (fun object => (object.name, object.values, object.owned)) fun _ _ _ _ _ => rfl
  rw [below] at law ends
  have obliging := Obliging.of_still (fun object => (object.name, object.values, object.owned)) still
  obtain ⟨during, w', runs⟩ := ends obliging
  obtain ⟨-, felled, uprooted⟩ :=
    (law during (.ok ()) w' runs (obliging.discreet during)).resolve_left (by simp)
  exact ⟨during, w', tidy, runs, felled, uprooted⟩

end ScriptBridge
