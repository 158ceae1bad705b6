import ScriptBridge.Proofs.Frames
import ScriptBridge.Proofs.Guards

/-!
How many operations of the bridge are in progress on a state. What a program gets to from where it has
begun lies inside of some layers, operations and tasks, and the operations among the layers are those in
progress; a program that has ended has ended all operations that it has begun.
-/

namespace ScriptBridge

namespace World

/-- How many operations are in progress on a state that is open. -/
def depth? (w : World) (s : StateId) : Option Nat := (w.engine? s).map (·.depth)

/-- Whether the same states are open with as many operations in progress. -/
def SameDepths (w w' : World) : Prop := ∀ s, w'.depth? s = w.depth? s

/-- Whether the operations in progress are operations on some states, as often as these are listed. -/
def Counts (w : World) (ops : List StateId) : Prop :=
  ∀ s depth, w.depth? s = some depth → depth = ops.count s

/-- What a program that is allowed where operations are in progress keeps: in an operation everything,
outside of operations that there are none. -/
def Keeps (ops : List StateId) (w w' : World) : Prop :=
  match ops with
  | [] => w.Counts [] → w'.Counts []
  | _ :: _ => w.SameDepths w'

variable {w w₁ w' : World} {ops : List StateId}

theorem depth_eq (w : World) (s : StateId) : State.depth w s = (w.depth? s).getD 0 := rfl

theorem depth?_modifyEngine (w : World) (s t : StateId) (f : Engine → Engine) :
    (w.modifyEngine s f).depth? t =
      if s = t then (w.engine? t).map fun e => (f e).depth else w.depth? t := by
  unfold depth?
  rw [engine?_modifyEngine]
  split
  · rw [Option.map_map]
    rfl
  · rfl

namespace SameDepths

theorem refl (w : World) : w.SameDepths w := fun _ => rfl

theorem trans (first : w.SameDepths w₁) (second : w₁.SameDepths w') : w.SameDepths w' :=
  fun s => (second s).trans (first s)

theorem of_engines (same : w'.engines = w.engines) : w.SameDepths w' := by
  intro s
  unfold depth? engine?
  rw [same]

theorem modifyEngine (w : World) (s : StateId) {f : Engine → Engine}
    (keeps : ∀ e, (f e).depth = e.depth) : w.SameDepths (w.modifyEngine s f) := by
  intro t
  rw [depth?_modifyEngine]
  split
  · simp only [keeps, depth?]
  · rfl

theorem closeScope (w : World) (result : List Handle) : w.SameDepths (w.closeScope result) := by
  have settling (states : List StateId) (held : List Handle) (w : World) : w.SameDepths
      (states.foldl (fun w s => w.modifyEngine s fun e => e.settle s w.level result held) w) := by
    induction states generalizing w with
    | nil => exact refl w
    | cons s rest ih =>
      have settled : w.SameDepths (w.modifyEngine s fun e => e.settle s w.level result held) :=
        modifyEngine w s fun _ => rfl
      exact settled.trans (ih _)
  exact settling w.openStates w.heldHandles w

theorem retain (w : World) (s : StateId) (kept : List Nat) : w.SameDepths (w.retain s kept).2 := by
  unfold World.retain
  split
  · exact refl w
  · exact modifyEngine w s fun _ => rfl

theorem counts (same : w.SameDepths w') (counts : w.Counts ops) : w'.Counts ops :=
  fun s depth deep => counts s depth ((same s).symm.trans deep)

theorem keeps (same : w.SameDepths w') : Keeps ops w w' := by
  cases ops with
  | nil => exact same.counts
  | cons => exact same

end SameDepths

theorem depth?_enter (s t : StateId) (w : World) : ((Scope.operation s).enter w).depth? t =
    (w.depth? t).map fun depth => if s = t then depth + 1 else depth := by
  change (w.openScope.modifyEngine s _).depth? t = _
  rw [depth?_modifyEngine]
  change _ = Option.map _ ((w.engine? t).map (·.depth))
  by_cases same : s = t
  · simp only [if_pos same, Option.map_map]
    rfl
  · simp only [if_neg same, Option.map_id']
    rfl

theorem Counts.enter (counts : w.Counts ops) (sc : Scope) :
    (sc.enter w).Counts (sc.operations ++ ops) := by
  cases sc with
  | values => exact counts
  | operation s =>
    intro t depth deep
    rw [depth?_enter] at deep
    obtain ⟨outside, found, rfl⟩ := Option.map_eq_some_iff.mp deep
    change _ = (s :: ops).count t
    rw [List.count_cons, counts t outside found]
    by_cases same : s = t <;> simp [same]

/-- An operation that leaves the depths as it has found them ends with those from before it. -/
theorem SameDepths.exit {s : StateId} {result : List Handle}
    (inside : ((Scope.operation s).enter w).SameDepths w') :
    w.SameDepths ((Scope.operation s).exit result w') := by
  intro t
  change ((w'.closeScope result).modifyEngine s _).depth? t = _
  have before : (w'.closeScope result).depth? t =
      (w.depth? t).map fun depth => if s = t then depth + 1 else depth :=
    (closeScope w' result t).trans ((inside t).trans (depth?_enter s t w))
  rw [depth?_modifyEngine]
  by_cases same : s = t
  · subst same
    rw [if_pos rfl]
    change Option.map (fun e : Engine => e.depth - 1) _ = _
    have lowered := congrArg (Option.map (· - 1)) before
    simpa [depth?, Option.map_map, Function.comp_def] using lowered
  · simpa [same] using before

namespace Keeps

theorem refl (w : World) : Keeps ops w w := (SameDepths.refl w).keeps

theorem trans (first : Keeps ops w w₁) (second : Keeps ops w₁ w') : Keeps ops w w' := by
  cases ops with
  | nil => exact fun counts => second (first counts)
  | cons => exact SameDepths.trans first second

theorem counts (keeps : Keeps ops w w') (counts : w.Counts ops) : w'.Counts ops := by
  cases ops with
  | nil => exact keeps counts
  | cons => exact SameDepths.counts keeps counts

/-- What is kept in a scope is kept by the scope. -/
theorem exit {sc : Scope} {result : List Handle}
    (inside : Keeps (sc.operations ++ ops) (sc.enter w) w') :
    Keeps ops w (sc.exit result w') := by
  cases sc with
  | values =>
    have entered : w.SameDepths (Scope.values.enter w) := .of_engines rfl
    exact entered.keeps.trans (inside.trans (SameDepths.closeScope w' result).keeps)
  | operation s => exact (SameDepths.exit inside).keeps

theorem idle (keeps : Keeps ops w w') (idle : ops = [] → w.Counts []) :
    ops = [] → w'.Counts [] := by
  rintro rfl
  exact keeps (idle rfl)

/-- Depths do not change. -/
theorem depth_eq (keeps : Keeps ops w w') (idle : ops = [] → w.Counts []) (s : StateId) :
    State.depth w' s = State.depth w s := by
  have none {w : World} (counts : w.Counts []) : State.depth w s = 0 := by
    rw [World.depth_eq]
    cases deep : w.depth? s with
    | none => rfl
    | some depth => exact counts s depth deep
  cases ops with
  | nil => rw [none (keeps (idle rfl)), none (idle rfl)]
  | cons => rw [World.depth_eq, World.depth_eq, keeps s]

end Keeps

end World

open World (Counts Keeps SameDepths)

variable {α β : Type} {ops : List StateId} {w w₁ w' : World}

/-- An operation other than the opening and the closing of a state changes no depth. -/
theorem Op.sameDepths {o : Op β} (w : World) (within : match o with
      | .openEngine _ | .closeEngine _ => False
      | _ => True) : w.SameDepths (o.apply w).2 := by
  by_cases touches : o.TouchesEngines
  · cases o with
    | openEngine | closeEngine => exact within.elim
    | takePlace s =>
      simp only [Op.apply, World.takePlace]
      split
      · split
        · exact .modifyEngine w s fun _ => rfl
        · exact .refl w
      · exact .refl w
    | equip s part =>
      refine .modifyEngine w s fun e => ?_
      cases part <;> rfl
    | sweep s => exact .retain w s _
    | allocate | write | setRunning | givePlace | anchor | cacheWrapper | expire =>
      exact .modifyEngine w _ fun _ => rfl
    | _ => exact touches.elim
  · exact .of_engines (o.engines_apply w touches)

/-- A state that is opened has no operations in progress, and one that is closed leaves none. -/
theorem Op.counts_nil (o : Op β) (counts : w.Counts []) : (o.apply w).2.Counts [] := by
  cases o with
  | openEngine config =>
    intro s depth deep
    change ((w.engines.add _).get? s).map _ = _ at deep
    rw [Store.get?_add] at deep
    split at deep
    · cases deep
      rfl
    · exact counts s depth deep
  | closeEngine s =>
    intro t depth deep
    obtain ⟨e, found, rfl⟩ := Option.map_eq_some_iff.mp deep
    refine counts t e.depth ?_
    rw [World.depth?, World.engine?_of_closeEngine found]
    rfl
  | _ => exact (Op.sameDepths w trivial).counts counts

theorem Op.Guarded.keeps {o : Op β} (allowed : o.Guarded ops) (w : World) :
    Keeps ops w (o.apply w).2 := by
  cases ops with
  | nil => exact o.counts_nil
  | cons s ops =>
    refine Op.sameDepths w ?_
    cases o with
    | openEngine | closeEngine => cases allowed
    | _ => trivial

theorem Request.Begins.sameDepths {r : Request β} {a : Action β} (begins : r.Begins w a w₁) :
    w.SameDepths w₁ := by
  cases begins with
  | collected s w kept => exact .retain w s kept
  | _ => exact .refl _

/-- A request keeps what the program keeps that carries it out. -/
theorem Request.Begins.keeps {r : Request β} {a : Action β} (begins : r.Begins w a w₁)
    (allowed : r.Guarded ops) (inner : ∀ {ops}, a.Guarded ops → Keeps ops w₁ w') :
    Keeps ops w w' := by
  refine begins.sameDepths.keeps.trans ?_
  obtain inside | ⟨s, -, -, inside⟩ := begins.guarded allowed
  · exact inner inside
  · have same : w₁.SameDepths w' := inner inside
    exact same.keeps

/-- A program that is allowed, and has ended, keeps what is to be kept. -/
theorem Runs.keeps {a : Action α} {moments : List Moment} {outcome : Option (Except Fault α)}
    (runs : Runs a w moments outcome w') (ended : outcome.isSome) (guarded : a.Guarded ops) :
    Keeps ops w w' := by
  induction runs generalizing ops with
  | stop | requestStopped | scopeStopped => cases ended
  | pure | fail => exact .refl _
  | op _ ih => exact (guarded.1.keeps _).trans (ih ended (guarded.2 _))
  | requestFailed begins _ ih => exact begins.keeps guarded.1 (ih rfl)
  | requestDone begins _ _ inner ih =>
    exact (begins.keeps guarded.1 (inner rfl)).trans (ih ended (guarded.2 _))
  | scopeDone _ _ inside ih =>
    exact (inside rfl guarded.1).exit.trans (ih ended (guarded.2 _))

/-- Something that has begun and not ended. -/
inductive Layer where
  | operation (s : StateId)
  | task (s : StateId) (task : Task)

/-- The layers that a scope adds. -/
def Scope.layers : Scope → List Layer
  | .operation s => [.operation s]
  | .values => []

/-- The layers that a request adds. -/
def Request.layers : Request β → List Layer
  | .script s task => [.task s task]
  | .deliver .. | .destroy _ | .collect _ => []

namespace Layer

/-- The states on which operations are in progress inside of some layers, the outermost first, that
begin where other operations are. -/
def inside : List StateId → List Layer → List StateId
  | ops, [] => ops
  | ops, .operation s :: layers => inside (s :: ops) layers
  | ops, .task _ _ :: layers => inside ops layers

/-- Whether none of the tasks among some layers is one with which a state is set up, other than in an
operation on that state. -/
def Regular : List StateId → List Layer → Prop
  | _, [] => True
  | ops, .operation s :: layers => Regular (s :: ops) layers
  | ops, .task s asked :: layers => (asked.IsSetup → s ∈ ops) ∧ Regular ops layers

end Layer

/-- A program that starts in a world gets to another one, which is about to run in some world inside of
some layers. -/
inductive Visits :
    {α β : Type} → Action α → World → List Layer → Action β → World → Prop where
  | here {α : Type} (a : Action α) (w : World) : Visits a w [] a w
  | op {α β γ : Type} {o : Op γ} {next : γ → Action α} {b : Action β} {w w' : World}
      {layers : List Layer} (rest : Visits (next (o.apply w).1) (o.apply w).2 layers b w') :
    Visits (.op o next) w layers b w'
  | request {α β γ : Type} {r : Request γ} {next : γ → Action α} {a : Action γ} {b : Action β}
      {w w₁ w' : World} {layers : List Layer} (begins : r.Begins w a w₁)
      (inner : Visits a w₁ layers b w') : Visits (.request r next) w (r.layers ++ layers) b w'
  | requestDone {α β γ : Type} {r : Request γ} {next : γ → Action α} {a : Action γ} {b : Action β}
      {x : γ} {w w₁ w₂ w' : World} {layers : List Layer} {moments : List Moment}
      (begins : r.Begins w a w₁) (inner : Runs a w₁ moments (some (.ok x)) w₂)
      (rest : Visits (next x) w₂ layers b w') : Visits (.request r next) w layers b w'
  | scope {α β γ : Type} {s : Scope} {held : γ → List Handle} {body : Action γ}
      {next : Except Fault γ → Action α} {b : Action β} {w w' : World} {layers : List Layer}
      (inner : Visits body (s.enter w) layers b w') :
    Visits (.scope s held body next) w (s.layers ++ layers) b w'
  | scopeDone {α β γ : Type} {s : Scope} {held : γ → List Handle} {body : Action γ}
      {next : Except Fault γ → Action α} {b : Action β} {w w₁ w' : World} {layers : List Layer}
      {moments : List Moment} {result : Except Fault γ}
      (inner : Runs body (s.enter w) moments (some result) w₁)
      (rest : Visits (next result) (s.exit (Scope.kept held result) w₁) layers b w') :
    Visits (.scope s held body next) w layers b w'

namespace Visits

variable {a : Action α} {b : Action β} {layers : List Layer}

/-- Where an allowed program gets, something is allowed again, and outside of operations there are
none in progress. -/
theorem allowed (visits : Visits a w layers b w') (guarded : a.Guarded ops)
    (idle : ops = [] → w.Counts []) : ∃ ops', b.Guarded ops' ∧ (ops' = [] → w'.Counts []) := by
  induction visits generalizing ops with
  | here => exact ⟨ops, guarded, idle⟩
  | op _ ih => exact ih (guarded.2 _) fun none => Op.counts_nil _ (idle none)
  | request begins _ ih =>
    obtain inside | ⟨s, -, -, inside⟩ := begins.guarded guarded.1
    · exact ih inside fun none => begins.sameDepths.counts (idle none)
    · exact ih inside (by simp)
  | requestDone begins inner _ ih =>
    exact ih (guarded.2 _) ((begins.keeps guarded.1 (inner.keeps rfl)).idle idle)
  | @scope _ _ _ s _ _ _ _ _ _ _ _ ih =>
    refine ih guarded.1 fun none => ?_
    obtain ⟨outermost, rfl⟩ := List.append_eq_nil_iff.mp none
    have entered := (idle rfl).enter s
    rwa [outermost] at entered
  | scopeDone inner _ ih => exact ih (guarded.2 _) ((inner.keeps rfl guarded.1).exit.idle idle)

/-- Where an allowed program gets by regular layers, that is allowed which is allowed in the operations
among the layers, and those are the operations in progress. -/
theorem inside (visits : Visits a w layers b w') (guarded : a.Guarded ops)
    (regular : Layer.Regular ops layers) (counts : w.Counts ops) :
    b.Guarded (Layer.inside ops layers) ∧ w'.Counts (Layer.inside ops layers) := by
  induction visits generalizing ops with
  | here => exact ⟨guarded, counts⟩
  | op _ ih => exact ih (guarded.2 _) regular ((guarded.1.keeps _).counts counts)
  | @request _ _ _ r _ _ _ _ _ _ _ begins _ ih =>
    have started := begins.sameDepths.counts counts
    obtain ordinary | ⟨s, sets, outside, -⟩ := begins.guarded guarded.1
    · cases r with
      | script s task => exact ih ordinary regular.2 started
      | deliver | destroy | collect => exact ih ordinary regular started
    · cases r with
      | script s' task =>
        obtain ⟨rfl, setup⟩ := sets
        exact absurd (regular.1 setup) outside
      | deliver | destroy | collect => exact sets.elim
  | requestDone begins inner _ ih =>
    exact ih (guarded.2 _) regular ((begins.keeps guarded.1 (inner.keeps rfl)).counts counts)
  | @scope _ _ _ s _ _ _ _ _ _ _ _ ih =>
    have entered := counts.enter s
    cases s with
    | operation s => exact ih guarded.1 regular entered
    | values => exact ih guarded.1 regular entered
  | scopeDone inner _ ih =>
    exact ih (guarded.2 _) regular ((inner.keeps rfl guarded.1).exit.counts counts)

end Visits

end ScriptBridge
