import Mathlib.Data.List.Forall2
import ScriptBridge.Proofs.Exchange

/-!
What programs come to when requests are nested to a fixed depth, and how worlds differ that operations
on plain tables lead to: in one cell, or in none.
-/

namespace ScriptBridge

open Script (Cell Datum Table)

namespace Action

variable {α β : Type} {w w₁ w' : World}

theorem runWith_bind {carryOut : {β : Type} → Request β → World → Except Fault β × World}
    (a : Action α) (f : α → Action β) (w : World) :
    (a >>= f).runWith carryOut w =
      match a.runWith carryOut w with
      | (.ok x, w₁) => (f x).runWith carryOut w₁
      | (.error e, w₁) => (.error e, w₁) := by
  change (a.bind f).runWith carryOut w = _
  induction a generalizing w with
  | pure | fail => rfl
  | op o next ih => exact ih _ f _
  | request r next ih =>
    simp only [Action.bind, runWith]
    split
    · exact ih _ f _
    · rfl
  | scope s held body next _ ih => exact ih _ f _

theorem runTo_bind (n : Nat) (a : Action α) (f : α → Action β) (w : World) :
    (a >>= f).runTo n w =
      match a.runTo n w with
      | (.ok x, w₁) => (f x).runTo n w₁
      | (.error e, w₁) => (.error e, w₁) := by
  cases n <;> exact runWith_bind a f w

section Sequences

variable {n : Nat} {a : Action α} {f : α → Action β}

theorem runTo_bind_ok {x : α} (first : a.runTo n w = (.ok x, w₁)) :
    (a >>= f).runTo n w = (f x).runTo n w₁ := by
  rw [runTo_bind, first]

theorem runTo_bind_error {e : Fault} (first : a.runTo n w = (.error e, w₁)) :
    (a >>= f).runTo n w = (.error e, w₁) := by
  rw [runTo_bind, first]

theorem runTo_pure (n : Nat) (x : α) (w : World) :
    (pure x : Action α).runTo n w = (.ok x, w) := by
  cases n <;> rfl

theorem runTo_throw (n : Nat) (e : BridgeError) (w : World) :
    (throw e : Action α).runTo n w = (.error (.failed e), w) := by
  cases n <;> rfl

/-- A scope goes on with what its body comes to. -/
theorem runTo_scope {s : Scope} {held : α → List Handle} {next : Except Fault α → Action β}
    {result : Except Fault α} (inside : a.runTo n (s.enter w) = (result, w₁)) :
    (Action.scope s held a next).runTo n w =
      (next result).runTo n (s.exit (Scope.kept held result) w₁) := by
  have with_ {carryOut : {β : Type} → Request β → World → Except Fault β × World}
      (inside : a.runWith carryOut (s.enter w) = (result, w₁)) :
      (Action.scope s held a next).runWith carryOut w =
        (next result).runWith carryOut (s.exit (Scope.kept held result) w₁) := by
    rw [runWith, inside]
  cases n <;> exact with_ inside

theorem runTo_fail (n : Nat) (e : Fault) (w : World) :
    (Action.fail e : Action α).runTo n w = (.error e, w) := by
  cases n <;> rfl

section Attempts

variable [Holding α]

theorem runTo_attempt_ok {x : α} (inside : a.runTo n (Scope.values.enter w) = (.ok x, w₁)) :
    (attempt a).runTo n w = (.ok (.ok x), Scope.values.exit (handles x) w₁) :=
  (runTo_scope inside).trans (runTo_pure n _ _)

theorem runTo_attempt_error {e : BridgeError}
    (inside : a.runTo n (Scope.values.enter w) = (.error (.failed e), w₁)) :
    (attempt a).runTo n w = (.ok (.error e), Scope.values.exit [] w₁) :=
  (runTo_scope inside).trans (runTo_pure n _ _)

theorem runTo_attempt_exhausted
    (inside : a.runTo n (Scope.values.enter w) = (.error .exhausted, w₁)) :
    (attempt a).runTo n w = (.error .exhausted, Scope.values.exit [] w₁) :=
  (runTo_scope inside).trans (runTo_fail n _ _)

end Attempts

theorem runTo_view_bind {look : World → α} :
    (view look >>= f).runTo n w = (f (look w)).runTo n w := by
  cases n <;> rfl

/-- Elementary operations come to the same at every depth. -/
theorem runTo_straight {x : α} (goes : a.straight w = some (x, w')) :
    a.runTo n w = (.ok x, w') := by
  have with_ {carryOut : {β : Type} → Request β → World → Except Fault β × World} :
      a.runWith carryOut w = (.ok x, w') := by
    induction a generalizing w with
    | pure =>
      cases goes
      rfl
    | op o next ih => exact ih _ goes
    | fail | request | scope => cases goes
  cases n <;> exact with_

/-- Programs without requests come to the same at every depth, too. -/
theorem Plain.runTo_eq (plain : a.Plain) (n : Nat) (w : World) : a.runTo n w = a.run w :=
  plain.ends_iff.mp (Ends.of_runTo n a w)

theorem runTo_map (f : α → β) (n : Nat) (a : Action α) (w : World) :
    (f <$> a).runTo n w = (a.runTo n w).map (·.map f) id := by
  rw [map_eq_pure_bind, runTo_bind]
  rcases a.runTo n w with ⟨e | x, w₁⟩
  · rfl
  · exact runTo_pure n (f x) w₁

/-- A loop each step of which keeps an invariant: it gives what the steps give, or fails as the first
of them that fails. -/
theorem runTo_mapM {items : List α} {f : α → Action β} {I : World → Prop} {P : α → β → Prop}
    {E : α → Fault → Prop}
    (each : ∀ item ∈ items, ∀ v, I v →
      (∃ y v', (f item).runTo n v = (.ok y, v') ∧ P item y ∧ I v') ∨
        ∃ e v', (f item).runTo n v = (.error e, v') ∧ E item e ∧ I v')
    (holds : I w) :
    (∃ ys w', (items.mapM f).runTo n w = (.ok ys, w') ∧ List.Forall₂ P items ys ∧ I w') ∨
      ∃ item ∈ items, ∃ e w', (items.mapM f).runTo n w = (.error e, w') ∧ E item e ∧ I w' := by
  induction items generalizing w with
  | nil => exact .inl ⟨[], w, runTo_pure n [] w, .nil, holds⟩
  | cons item rest ih =>
    simp only [List.mapM_cons]
    rcases each item (.head _) w holds with ⟨y, w₁, first, fits, holds₁⟩ | ⟨e, w', first, fails, after⟩
    · have others := ih (fun item member => each item (.tail _ member)) holds₁
      rcases others with ⟨ys, w', rest, fit, after⟩ | ⟨item', member, e, w', rest, fails, after⟩
      · refine .inl ⟨y :: ys, w', ?_, .cons fits fit, after⟩
        rw [runTo_bind_ok first, runTo_bind_ok rest]
        exact runTo_pure n _ w'
      · refine .inr ⟨item', .tail _ member, e, w', ?_, fails, after⟩
        rw [runTo_bind_ok first, runTo_bind_error rest]
    · exact .inr ⟨item, .head _, e, w', runTo_bind_error first, fails, after⟩

/-- A program comes from one world to what another one comes to from a later world. -/
structure Becomes (a : Action α) (w : World) (b : Action α) (w' : World) : Prop where
  ends : ∀ {result : Except Fault α} {w₂ : World}, Ends a w result w₂ ↔ Ends b w' result w₂
  runTo : ∀ n, a.runTo n w = b.runTo n w'

namespace Becomes

theorem refl (a : Action α) (w : World) : a.Becomes w a w := ⟨Iff.rfl, fun _ => rfl⟩

theorem trans {b c : Action α} (first : a.Becomes w b w₁) (second : b.Becomes w₁ c w') :
    a.Becomes w c w' :=
  ⟨first.ends.trans second.ends, fun n => (first.runTo n).trans (second.runTo n)⟩

/-- What follows elementary operations decides. -/
theorem bind {x : α} (goes : a.straight w = some (x, w')) (f : α → Action β) :
    (a >>= f).Becomes w (f x) w' :=
  ⟨Ends.straight_bind_iff goes, fun _ => runTo_bind_ok (runTo_straight goes)⟩

theorem view (look : World → α) (f : α → Action β) (w : World) :
    (Action.view look >>= f).Becomes w (f (look w)) w :=
  bind (straight_view look) f

end Becomes

/-- The outcome of a task that an engine does is made a result of the bridge. -/
theorem runTo_task {s : StateId} {task : Task} {outcome : Except Fault Script.Outcome}
    (ran : (Script.runTask s task).runTo n w = (outcome, w')) :
    (runTask s task).runTo (n + 1) w = (taskResult outcome, w') := by
  change runWith (fun r w => runTo n r.program w) (.request (.script s task) _) w = _
  simp only [runWith, Request.program, ran]
  rcases outcome with e | e | data <;> rfl

/-- An engine that performs nothing but elementary operations for a task. -/
theorem runTo_runTask {s : StateId} {task : Task} {data : List Datum}
    (goes : (Script.runTask s task).straight w = some (.ok data, w')) :
    (runTask s task).runTo (n + 1) w = (.ok data, w') :=
  runTo_task (runTo_straight goes)

end Sequences

end Action

theorem Value.runTo_toData (n : Nat) (s : StateId) (values : List Value) (w : World) :
    (toData s values).runTo n w = ((values.mapM (Value.datum w s)).mapError .failed, w) :=
  have ⟨result, left⟩ := Ends.toData_iff.mp (Ends.of_runTo n (toData s values) w)
  Prod.ext result left

/-- What the bridge and tasks begin with in an engine: the table of globals, and who runs. -/
def Engine.stage (e : Engine) : Ref × Ref := (e.globals, e.running)

namespace World

variable {w w₁ w' : World} {r : Ref} {cell : Cell}

def SameStage (w w' : World) : Prop :=
  ∀ s, (w'.engine? s).map Engine.stage = (w.engine? s).map Engine.stage

theorem SameStage.modifyEngine (w : World) (t : StateId) {f : Engine → Engine}
    (same : ∀ e, (f e).stage = e.stage) : w.SameStage (w.modifyEngine t f) := by
  intro s
  rw [engine?_modifyEngine]
  split
  · rw [Option.map_map]
    exact congrArg (Option.map · _) (funext same)
  · rfl

theorem SameStage.trans (first : w.SameStage w₁) (second : w₁.SameStage w') : w.SameStage w' :=
  fun s => (second s).trans (first s)

theorem SameStage.isOpen (same : w.SameStage w') (s : StateId) : w'.isOpen s = w.isOpen s := by
  have look (w : World) : w.isOpen s = ((w.engine? s).map Engine.stage).isSome :=
    Option.isSome_map.symm
  rw [look, look, same]

theorem SameStage.engine {s : StateId} {e : Engine} (same : w.SameStage w')
    (found : w.engine? s = some e) :
    ∃ e', w'.engine? s = some e' ∧ e'.globals = e.globals ∧ e'.running = e.running := by
  have stage := same s
  rw [found] at stage
  obtain ⟨e', there, equal⟩ := Option.map_eq_some_iff.mp stage
  exact ⟨e', there, congrArg Prod.fst equal, congrArg Prod.snd equal⟩

/-- The scene is the same: all cells, and what tasks begin with. -/
structure SameScene (w w' : World) : Prop where
  cells : w'.cell? = w.cell?
  stage : w.SameStage w'

/-- Nothing but one cell is different: it holds what was put there. -/
structure Puts (w : World) (r : Ref) (cell : Cell) (w' : World) : Prop where
  there : w'.cell? r = some cell
  others : ∀ r', r' ≠ r → w'.cell? r' = w.cell? r'
  stage : w.SameStage w'

namespace SameScene

theorem refl (w : World) : w.SameScene w := ⟨rfl, fun _ => rfl⟩

theorem trans (first : w.SameScene w₁) (second : w₁.SameScene w') : w.SameScene w' :=
  ⟨second.cells.trans first.cells, first.stage.trans second.stage⟩

theorem enter (s : StateId) (w : World) : w.SameScene ((Scope.operation s).enter w) where
  cells := funext (Alike.enter (.operation s) w).cell?
  stage := SameStage.modifyEngine w.openScope s (f := fun e => { e with depth := e.depth + 1 })
    fun _ => rfl

theorem exit (s : StateId) (result : List Handle) (w : World) :
    w.SameScene ((Scope.operation s).exit result w) where
  cells := funext (Alike.exit (.operation s) result w).cell?
  stage := by
    have each (states : List StateId) (held : List Handle) (w : World) :
        w.SameStage (states.foldl (fun (w : World) s =>
          w.modifyEngine s fun e => e.settle s w.level result held) w) := by
      induction states generalizing w with
      | nil => exact fun _ => rfl
      | cons s rest ih =>
        exact (SameStage.modifyEngine w s (f := fun e => e.settle s w.level result held)
          fun _ => rfl).trans (ih _)
    have closed : w.SameStage (w.closeScope result) := each w.openStates w.heldHandles w
    exact closed.trans (.modifyEngine _ s fun _ => rfl)

theorem anchor (w : World) (target : Ref) : w.SameScene (w.anchor target).2 where
  cells := funext (Alike.anchor w target).cell?
  stage := .modifyEngine w target.owner fun _ => rfl

variable (same : w.SameScene w')
include same

theorem cell? (r : Ref) : w'.cell? r = w.cell? r := congrFun same.cells r

theorem tableAt (r : Ref) : w'.tableAt r = w.tableAt r := by
  simp only [World.tableAt, same.cells]

end SameScene

namespace Puts

theorem before (same : w.SameScene w₁) (puts : w₁.Puts r cell w') : w.Puts r cell w' where
  there := puts.there
  others r' other := (puts.others r' other).trans (same.cell? r')
  stage := same.stage.trans puts.stage

theorem after (puts : w.Puts r cell w₁) (same : w₁.SameScene w') : w.Puts r cell w' where
  there := (same.cell? r).trans puts.there
  others r' other := (same.cell? r').trans (puts.others r' other)
  stage := puts.stage.trans same.stage

/-- A cell is written that is of the same kind as the one that is there. -/
theorem write {old : Cell} (found : w.cell? r = some old) (like : old.isLike cell) :
    w.Puts r cell (w.write r cell) where
  there := by
    rw [cell?_write, if_pos rfl, found, Option.map_some, if_pos like]
  others r' other := by rw [cell?_write, if_neg other]
  stage := .modifyEngine w r.owner fun _ => rfl

/-- A new cell has a place that was free. -/
theorem allocate {s : StateId} (isOpen : w.isOpen s) (cell : Cell) :
    w.cell? (w.allocate s cell).1 = none ∧
      w.Puts (w.allocate s cell).1 cell (w.allocate s cell).2 := by
  obtain ⟨e, engine⟩ := Option.isSome_iff_exists.mp isOpen
  have place : (w.allocate s cell).1 = ⟨s, e.heap.next⟩ := by simp [World.allocate, engine]
  refine ⟨?_, cell?_allocate isOpen cell, fun r' other => ?_, .modifyEngine w s fun _ => rfl⟩
  · simp [World.cell?, place, engine, e.heap.get?_of_next_le (Nat.le_refl _)]
  · simp only [World.cell?, World.allocate, engine?_modifyEngine]
    split
    · rename_i own
      have apart : r'.index ≠ e.heap.next := fun same => other (by rw [place, own, ← same])
      rw [← own, engine]
      simp [Store.get?_add, apart]
    · rfl

end Puts

/-- A cell that is there is one of an engine that is there. -/
theorem exists_engine_of_cell? (found : w.cell? r = some cell) : ∃ e, w.engine? r.owner = some e := by
  obtain ⟨e, engine, -⟩ := Option.bind_eq_some_iff.mp found
  exact ⟨e, engine⟩

end World

/-- An operation of the bridge has the result of its body. -/
theorem Action.runTo_operation_exit {α : Type} [Holding α] {n : Nat} {s : StateId} {a : Action α}
    {result : Except Fault α} {w w₁ : World}
    (inside : a.runTo n ((Scope.operation s).enter w) = (result, w₁)) :
    (Action.operation s a).runTo n w =
      (result, (Scope.operation s).exit (Scope.kept handles result) w₁) := by
  refine (runTo_scope inside).trans ?_
  cases result with
  | ok x => exact runTo_pure n x _
  | error f => cases n <;> rfl

/-- An operation of the bridge leaves the scene to what its body makes of it. -/
theorem Action.runTo_operation {α : Type} [Holding α] {n : Nat} {s : StateId} {a : Action α}
    {result : Except Fault α} {w w₁ : World}
    (inside : a.runTo n ((Scope.operation s).enter w) = (result, w₁)) :
    ∃ w', (Action.operation s a).runTo n w = (result, w') ∧ w₁.SameScene w' :=
  ⟨_, runTo_operation_exit inside, .exit s _ w₁⟩

namespace Script

variable {w : World} {r : Ref} {content : Table}

/-- A machine with values and nothing that waits for them ends its task. -/
theorem Machine.straight_run {m : Machine} {values : List Datum} {k : Nat}
    (gives : m.control = .give values) (bottom : m.konts = []) (alone : m.callers = [])
    (entered : m.isResumed = false) : (m.run (k + 1)).straight w = some (.ok values, w) := by
  unfold run step
  rw [gives, bottom]
  simp [complete, alone, endTask, entered]

theorem metamethod_plain (found : w.cell? r = some (.table content none)) (s : StateId)
    (event : String) : w.metamethod s (.table r) event = none := by
  simp [World.metamethod, World.isNative, World.metafield, World.metatableOf, World.metatableAt, found]

theorem tableAt_eq {metatable : Option Ref} (found : w.cell? r = some (.table content metatable)) :
    w.tableAt r = content := by
  simp only [World.tableAt, found]

/-- A prepared machine that has the results already. -/
theorem straight_runPrepared {s : StateId} {e : Engine} (engine : w.engine? s = some e)
    {prepare : Machine → Action Machine} {values : List Datum} {w' : World}
    (prepared : ∀ m, (prepare m).straight w = some (m.give values, w')) :
    (runPrepared s prepare).straight w = some (.ok values, w') := by
  obtain ⟨steps, limit⟩ : ∃ n, stepLimit = n + 1 := ⟨49999999, rfl⟩
  unfold runPrepared
  simp only [Action.straight_bind, Action.straight_view, Option.bind_some, engine, Option.map_some,
    prepared, limit]
  exact Machine.straight_run rfl rfl rfl rfl

namespace Machine

variable {m : Machine}

/-- A member that a table holds is given without a metamethod. -/
theorem straight_index_present {metatable : Option Ref}
    (found : w.cell? r = some (.table content metatable)) {key : Datum}
    (present : content.get key ≠ .nil) (name : Option Described) (site : Option Site) :
    (m.index (.table r) key name site).straight w = some (m.give [content.get key], w) := by
  change (m.indexTo key site (1999 + 1) (.table r) name).straight w = _
  unfold indexTo
  simp only [Action.straight_bind, Action.straight_view, Option.bind_some, tableAt_eq found]
  cases held : content.get key with
  | nil => exact absurd held present
  | _ => rfl

/-- A member of a table without a metatable is what the table holds. -/
theorem straight_index_plain (found : w.cell? r = some (.table content none)) (key : Datum)
    (name : Option Described) (site : Option Site) :
    (m.index (.table r) key name site).straight w = some (m.give [content.get key], w) := by
  by_cases present : content.get key = .nil
  · change (m.indexTo key site (1999 + 1) (.table r) name).straight w = _
    unfold indexTo metamethod
    simp only [Action.straight_bind, Action.straight_view, Option.bind_some, tableAt_eq found,
      present, Datum.isNil, Bool.not_true, Bool.false_eq_true, if_false, metamethod_plain found]
    rfl
  · exact straight_index_present found present name site

/-- Past metamethods a table takes a value under any key that can be one. -/
theorem straight_rawAssign {metatable : Option Ref}
    (found : w.cell? r = some (.table content metatable)) {key : Datum}
    (keyed : isBadKey key = none) (value : Datum) (site : Option Site) :
    (m.rawAssign r key value site).straight w =
      some (m.give [], w.write r (.table (content.set key value) metatable)) := by
  have stores : (rawAssign.store m r key value).straight w =
      some (m.give [], w.write r (.table (content.set key value) metatable)) := by
    have same : w.metatableAt r = metatable := by simp only [World.metatableAt, found]
    unfold rawAssign.store
    simp only [Action.straight_bind, Action.straight_view, Option.bind_some, tableAt_eq found, same]
    rfl
  unfold rawAssign
  cases key with
  | nil => cases keyed
  | float d =>
    have number : d.isNaN = false := by simpa [isBadKey] using keyed
    simpa [number] using stores
  | _ => exact stores

/-- A table that has no metatable, or has a value under the key, takes the new value itself. -/
theorem straight_assign_taken {metatable : Option Ref}
    (found : w.cell? r = some (.table content metatable)) {key : Datum}
    (keyed : isBadKey key = none) (taken : metatable = none ∨ content.get key ≠ .nil)
    (value : Datum) (name : Option Described) (site : Option Site) :
    (m.assign (.table r) key value name site).straight w =
      some (m.give [], w.write r (.table (content.set key value) metatable)) := by
  change (m.assignTo key value site (1999 + 1) (.table r) name).straight w = _
  have stores := m.straight_rawAssign found keyed value site
  unfold assignTo metamethod
  rw [Action.straight_bind, Action.straight_view, Option.bind_some]
  dsimp only
  split
  · rename_i absent
    rcases taken with rfl | present
    · simp only [Action.straight_bind, Action.straight_view, Option.bind_some, metamethod_plain found]
      exact stores
    · rw [tableAt_eq found] at absent
      cases held : content.get key <;> simp_all [Datum.isNil]
  · simp only [Action.straight_bind, Action.straight_pure, Option.bind_some]
    exact stores

end Machine

/-- A member that a table holds is read without a metamethod. -/
theorem straight_readPresent {metatable : Option Ref}
    (found : w.cell? r = some (.table content metatable)) {key : Datum}
    (present : content.get key ≠ .nil) :
    (Script.runTask r.owner (.index (.table r) key)).straight w = some (.ok [content.get key], w) := by
  obtain ⟨e, engine⟩ := World.exists_engine_of_cell? found
  exact straight_runPrepared engine fun m => m.straight_index_present found present none none

/-- A member of a table without a metatable is what the table holds. -/
theorem straight_readMember (found : w.cell? r = some (.table content none)) (key : Datum) :
    (Script.runTask r.owner (.index (.table r) key)).straight w = some (.ok [content.get key], w) := by
  obtain ⟨e, engine⟩ := World.exists_engine_of_cell? found
  exact straight_runPrepared engine fun m => m.straight_index_plain found key none none

/-- A member is written into a table that takes it itself. -/
theorem straight_writeMember {metatable : Option Ref}
    (found : w.cell? r = some (.table content metatable)) (key : Datum)
    (keyed : Machine.isBadKey key = none) (taken : metatable = none ∨ content.get key ≠ .nil)
    (value : Datum) :
    (Script.runTask r.owner (.assign (.table r) key value)).straight w =
      some (.ok [], w.write r (.table (content.set key value) metatable)) := by
  obtain ⟨e, engine⟩ := World.exists_engine_of_cell? found
  exact straight_runPrepared engine fun m => m.straight_assign_taken found keyed taken value none none

/-- A datum as a value, without the anchor of a handle; a failure that was caught is none. -/
def Datum.asValue : Datum → Option Value
  | .nil => some .nil
  | .bool b => some (.bool b)
  | .int i => some (.int i)
  | .float d => some (.number d)
  | .text s => some (.text s.toText)
  | .table r => some (.handle ⟨.table, r, 0⟩)
  | .function r => some (.handle ⟨.function, r, 0⟩)
  | .thread r => some (.handle ⟨.thread, r, 0⟩)
  | .userdata r => some (.handle ⟨.userdata, r, 0⟩)
  | .failure _ => none

end Script

namespace Value

variable {w : World} {s : StateId} {v : Value} {d : Datum}

theorem straight_toDatum (made : v.datum w s = .ok d) : (v.toDatum s).straight w = some (d, w) := by
  unfold toDatum
  rw [Action.straight_bind, Action.straight_view, Option.bind_some, made]
  rfl

theorem straight_anchored (kind : HandleKind) (r : Ref) (w : World) :
    ∃ a w', (anchored kind r).straight w = some (.handle ⟨kind, r, a⟩, w') ∧ w.SameScene w' :=
  ⟨_, _, rfl, .anchor w r⟩

/-- A datum that has a value becomes that value, with an anchor of its own. -/
theorem straight_asValue (shown : d.asValue = some v) (w : World) :
    ∃ v' w', (ofDatum d).straight w = some (v', w') ∧ v'.bare = v ∧ w.SameScene w' := by
  cases d with
  | table r | function r | thread r | userdata r =>
    cases shown
    obtain ⟨a, w', goes, same⟩ := straight_anchored _ r w
    exact ⟨_, w', goes, rfl, same⟩
  | failure => cases shown
  | _ =>
    cases shown
    exact ⟨_, w, rfl, rfl, .refl w⟩

/-- What a value becomes has that value. -/
theorem asValue_of_datum (made : v.datum w s = .ok d) : d.asValue = some v.bare := by
  cases v with
  | handle h =>
    simp only [datum] at made
    split at made
    · cases made
    split at made
    · cases made
    cases made
    obtain ⟨kind, r, a⟩ := h
    cases kind <;> rfl
  | text t =>
    cases made
    simp [Datum.asValue, Datum.str, bare]
  | _ =>
    cases made
    rfl

end Value

end ScriptBridge
