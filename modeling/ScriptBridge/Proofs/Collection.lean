import ScriptBridge.Host.Samples
import ScriptBridge.Proofs.Owners
import ScriptBridge.Proofs.Reachable
import ScriptBridge.Proofs.Traces

/-!
Collections: which cells are left of a state, and which host objects a collection destroys.
-/

namespace ScriptBridge

open Script (Cell)

namespace Engine

/-- What is needed depends on cells and roots only. -/
theorem Leads.mono {e e' : Engine} {i : Nat} (leads : e.Leads i)
    (roots : ∀ r ∈ e.roots, r ∈ e'.roots)
    (cells : ∀ j cell, e.Leads j → e.heap.get? j = some cell → e'.heap.get? j = some cell) :
    e'.Leads i := by
  induction leads with
  | root root => exact .root (roots _ root)
  | member leads found member ih => exact .member ih (cells _ _ leads found) member

theorem leads_congr {e e' : Engine} (same : e'.grasp = e.grasp) (i : Nat) :
    e'.Leads i ↔ e.Leads i := by
  obtain ⟨heap, roots⟩ := Prod.mk.inj same
  have each (r : Ref) : r ∈ e'.roots ↔ r ∈ e.roots := iff_of_eq (congrFun roots r)
  exact ⟨fun leads => leads.mono (fun r => (each r).mp) (by simp [heap]),
    fun leads => leads.mono (fun r => (each r).mpr) (by simp [heap])⟩

theorem mem_nativesWhere {e : Engine} {p : Nat → Bool} {n : NativeId} :
    n ∈ e.nativesWhere p ↔ ∃ i, e.heap.get? i = some (.native n) ∧ p i = true := by
  unfold nativesWhere
  rw [List.mem_filterMap]
  constructor
  · rintro ⟨i, member, found⟩
    refine ⟨i, ?_, (List.mem_filter.mp member).2⟩
    split at found
    · rename_i m cell
      obtain rfl := Option.some.inj found
      exact cell
    · cases found
  · rintro ⟨i, cell, chosen⟩
    refine ⟨i, List.mem_filter.mpr ⟨?_, chosen⟩, by rw [cell]⟩
    exact List.mem_reverse.mpr (Store.mem_ids.mpr ⟨_, cell⟩)

end Engine

namespace World

variable {w w₁ w' : World} {s : StateId} {e : Engine} {n : NativeId}

/-- The cells that a sweep leaves are those that are needed. -/
theorem cell?_sweep (engine : w.engine? s = some e) (r : Ref) (cell : Cell) :
    (w.sweep s).2.cell? r = some cell ↔
      w.cell? r = some cell ∧ (r.owner = s → e.Leads r.index) := by
  simp only [sweep, retain, engine, Option.map_some, Option.getD_some, World.cell?,
    engine?_modifyEngine, Option.bind_eq_bind]
  by_cases here : s = r.owner
  · subst here
    simp only [engine, Engine.retain, if_true, Option.map_some, Option.bind_some, forall_const,
      Store.get?_eraseAll]
    constructor
    · intro found
      split at found
      · cases found
      · rename_i kept
        refine ⟨found, (Engine.mem_reachable_iff found).mp ?_⟩
        by_contra unreached
        exact kept (List.mem_filter.mpr ⟨Store.mem_ids.mpr ⟨cell, found⟩, by simpa using unreached⟩)
    · rintro ⟨found, leads⟩
      have reached := (Engine.mem_reachable_iff found).mpr leads
      rw [if_neg, found]
      intro unreached
      simpa [reached] using (List.mem_filter.mp unreached).2
  · rw [if_neg here]
    exact (and_iff_left fun same => absurd same.symm here).symm

/-- A sweep gives up the native objects in the cells that are not needed. -/
theorem mem_sweep (engine : w.engine? s = some e) :
    n ∈ (w.sweep s).1 ↔ ∃ i, e.heap.get? i = some (.native n) ∧ ¬ e.Leads i := by
  simp only [sweep, retain, engine, Option.map_some, Option.getD_some, Engine.mem_nativesWhere]
  refine exists_congr fun i => and_congr_right fun found => ?_
  rw [← Engine.mem_reachable_iff found]
  simp

theorem sweep_closed (closed : w.engine? s = none) : w.sweep s = ([], w) := by
  simp [sweep, retain, closed]

theorem objects_sweep (w : World) (s : StateId) : (w.sweep s).2.objects = w.objects := by
  unfold sweep retain
  split <;> rfl

theorem natives_sweep (w : World) (s : StateId) : (w.sweep s).2.natives = w.natives := by
  unfold sweep retain
  split <;> rfl

theorem cell?_of_engine (engine : w.engine? s = some e) (i : Nat) :
    w.cell? ⟨s, i⟩ = e.heap.get? i := by
  simp [cell?, engine]

/-- What a sweep holds less, it gives up. -/
theorem holdsNative_sweep (w : World) (s : StateId) (n : NativeId) :
    w.holdsNative n = true ↔ (w.sweep s).2.holdsNative n = true ∨ n ∈ (w.sweep s).1 := by
  cases engine : w.engine? s with
  | none => simp [sweep_closed engine]
  | some e =>
    simp only [holdsNative_iff, mem_sweep engine, cell?_sweep engine, object?, objects_sweep]
    constructor
    · rintro (⟨r, cell⟩ | property)
      · by_cases kept : r.owner = s → e.Leads r.index
        · exact .inl (.inl ⟨r, cell, kept⟩)
        · obtain ⟨rfl, lost⟩ := Classical.not_imp.mp kept
          exact .inr ⟨r.index, (cell?_of_engine engine _).symm.trans cell, lost⟩
      · exact .inl (.inr property)
    · rintro ((⟨r, cell, -⟩ | property) | ⟨i, cell, -⟩)
      · exact .inl ⟨r, cell⟩
      · exact .inr property
      · exact .inl ⟨⟨s, i⟩, (cell?_of_engine engine i).trans cell⟩

end World

/-- What a collection does once, and then once more. -/
def State.round (s : StateId) : Action Unit :=
  .within .values do State.finalize (← .perform (.sweep s))

section Round

variable {o : ObjectId} {n : NativeId} {w w₀ w₁ w' : World} {moments : List Moment} {s : StateId}
  {reason : Prop}

theorem World.Tended.of_same (tended : w.Tended o n) (objects : w'.objects = w.objects)
    (natives : w'.natives = w.natives) : w'.Tended o n := by
  obtain ⟨root, stray, only, alive⟩ := tended
  constructor <;>
    simpa only [parentOf, childrenOf, native?, isDestroyed, object?, objects, natives]

theorem Deals.alike (before : w.Alike w₀) (after : w₁.Alike w')
    (deals : Deals o n reason w₀ moments w₁) : Deals o n reason w moments w' := by
  have held := before.holdsNative n
  have native := before.native? n
  rcases deals with fells | spares
  · refine .inl ⟨native ▸ fells.owner, held ▸ fells.held, fells.asked, ?_, ?_⟩
    · exact (after.holdsNative n).trans fells.unheld
    · exact (after.isDestroyed o).trans fells.destroyed
  · refine .inr ⟨spares.silent, fun owner => ?_, fun owner why => ?_⟩
    · obtain ⟨still, alive⟩ := spares.owner (native.trans owner)
      exact ⟨(after.native? n).trans still, (after.isDestroyed o).trans alive⟩
    · exact (after.holdsNative n).trans
        (spares.held (native.trans owner) (why.imp_left held.trans))

theorem Deals.round (tended : w.Tended o n) (quiet : Quiet moments)
    (runs : Runs (State.round s) w moments (some (.ok ())) w') :
    Deals o n False w moments w' := by
  obtain ⟨w₁, inside, rfl⟩ := runs.of_within
  obtain ⟨rest, rfl, finalizing⟩ := inside.of_perform
  have entered := tended.of_same (World.Alike.enter .values w).objects
    (World.Alike.enter .values w).natives
  have swept := entered.of_same (World.objects_sweep _ s) (World.natives_sweep _ s)
  have natives : ((Scope.values.enter w).sweep s).2.native? n =
      (Scope.values.enter w).native? n := by
    simp only [World.native?, World.natives_sweep]
  exact ((finalize swept quiet.cons finalizing).of_step natives
    (World.holdsNative_sweep _ s n)).alike (.enter .values w) (.exit .values _ w₁)

/-- A world in which only the cells are left of a state that its engine needs. -/
structure World.Swept (s : StateId) (e : Engine) (w w' : World) : Prop where
  cells : ∀ r cell, w'.cell? r = some cell ↔
    w.cell? r = some cell ∧ (r.owner = s → e.Leads r.index)
  engine : ∃ e', w'.engine? s = some e' ∧ ∀ r, r ∈ e'.roots ↔ r ∈ e.roots

namespace World.Swept

variable {e e₁ : Engine}

theorem round (engine : w.engine? s = some e) (quiet : Quiet moments)
    (runs : Runs (State.round s) w moments (some (.ok ())) w') : Swept s e w w' := by
  obtain ⟨w₁, inside, exited⟩ := runs.of_within
  obtain ⟨rest, rfl, finalizing⟩ := inside.of_perform
  have entered : (Scope.values.enter w).engine? s = some e := engine
  have leaving : w₁.Wanes w' := exited ▸ .exit .values _ w₁
  have onward : ((Scope.values.enter w).sweep s).2.Wanes w' :=
    (finalizing.wanes (.finalize _) quiet.cons).trans leaving
  have swept : ((Scope.values.enter w).sweep s).2.engine? s = some (e.retain e.reachable) := by
    simp [sweep, World.retain, entered, engine?_modifyEngine]
  have same := onward.engines s
  rw [swept] at same
  obtain ⟨e', there, grasp⟩ := Option.map_eq_some_iff.mp same
  refine ⟨fun r cell => ?_, e', there, fun r => iff_of_eq (congrFun (Prod.mk.inj grasp).2 r)⟩
  rw [onward.cell?]
  exact cell?_sweep entered r cell

/-- After a sweep all that is left is needed, so another one takes nothing. -/
theorem again (first : Swept s e w w₁) (engine : w.engine? s = some e)
    (engine₁ : w₁.engine? s = some e₁) (second : Swept s e₁ w₁ w') : Swept s e w w' := by
  obtain ⟨e', there, roots⟩ := first.engine
  obtain rfl := Option.some.inj (engine₁.symm.trans there)
  have still (i : Nat) (leads : e.Leads i) : e₁.Leads i := by
    refine leads.mono (fun r root => (roots r).mpr root) fun j cell leads found => ?_
    rw [← cell?_of_engine engine₁, first.cells, cell?_of_engine engine]
    exact ⟨found, fun _ => leads⟩
  obtain ⟨e'', there', roots'⟩ := second.engine
  refine ⟨fun r cell => ?_, e'', there', fun r => (roots' r).trans (roots r)⟩
  rw [second.cells, first.cells, and_assoc]
  exact and_congr_right fun _ => ⟨fun both => both.1, fun needed =>
    ⟨needed, fun here => still _ (needed here)⟩⟩

end World.Swept

end Round

/-- What a state needs: what its scripts and the handles that are alive lead to. -/
def World.Needed (w : World) (r : Ref) : Prop :=
  ∃ e, w.engine? r.owner = some e ∧ ({ e with stale := [] } : Engine).Leads r.index

section Collection

variable {o : ObjectId} {n : NativeId} {w w₁ w₂ w' : World} {moments : List Moment} {s : StateId}

/-- The world in which a collection begins to sweep. -/
def World.collecting (w : World) (s : StateId) : World := ((Scope.operation s).enter w).expire s

/-- An engine of which a collection begins. -/
def Engine.collecting (e : Engine) : Engine := { e with depth := e.depth + 1, stale := [] }

theorem World.engine?_collecting (w : World) (s : StateId) :
    (w.collecting s).engine? s = (w.engine? s).map Engine.collecting := by
  have opened : w.openScope.engine? s = w.engine? s := rfl
  simp only [collecting, expire, Scope.enter, engine?_modifyEngine, if_true, Option.map_map, opened]
  rfl

theorem World.leads_collecting {r : Ref} {e : Engine} (engine : w.engine? r.owner = some e) :
    e.collecting.Leads r.index ↔ w.Needed r := by
  have same : e.collecting.grasp = ({ e with stale := [] } : Engine).grasp := rfl
  refine (Engine.leads_congr same r.index).trans ⟨fun leads => ⟨e, engine, leads⟩, ?_⟩
  rintro ⟨e', there, leads⟩
  obtain rfl := Option.some.inj (engine.symm.trans there)
  exact leads

theorem State.collectGarbage_eq (s : StateId) : State.collectGarbage s =
    .operation s (Action.perform (.expire s) >>= fun _ => round s >>= fun _ => round s) := rfl

theorem Runs.of_collectGarbage (runs : Runs (State.collectGarbage s) w moments (some (.ok ())) w') :
    ∃ w₁ w₂ first second,
      moments = .op (.expire s) ((Scope.operation s).enter w) :: (first ++ second) ∧
      Runs (State.round s) (w.collecting s) first (some (.ok ())) w₁ ∧
      Runs (State.round s) w₁ second (some (.ok ())) w₂ ∧ w₂.Alike w' ∧ w₂.Wanes w' := by
  rw [State.collectGarbage_eq] at runs
  obtain ⟨w₂, inside, rfl⟩ := runs.of_within
  obtain ⟨rest, rfl, sweeping⟩ := inside.of_perform
  obtain ⟨⟨⟩, w₁, first, second, rfl, once, again⟩ := sweeping.of_bind
  exact ⟨w₁, w₂, first, second, rfl, once, again, .exit _ _ _, .exit _ _ _⟩

theorem World.Alike.collecting (w : World) (s : StateId) : w.Alike (w.collecting s) :=
  (enter _ w).trans (modifyEngine _ s fun _ => rfl)

theorem World.Dwindles.sweep (w : World) (s : StateId) : w.Dwindles (w.sweep s).2 where
  natives := by simp [native?, natives_sweep]
  held := fun n held => (holdsNative_sweep w s n).mpr (.inl held)
  destroyed := by simp [isDestroyed, object?, objects_sweep]
  orphans := by simp [parentOf, object?, objects_sweep]
  children := by simp [childrenOf, object?, objects_sweep]

theorem Runs.dwindles_round (quiet : Quiet moments)
    (runs : Runs (State.round s) w moments (some (.ok ())) w') : w.Dwindles w' := by
  obtain ⟨w₁, inside, exited⟩ := runs.of_within
  obtain ⟨rest, rfl, finalizing⟩ := inside.of_perform
  have leaving : w₁.Wanes w' := exited ▸ .exit .values _ w₁
  exact ((World.Wanes.enter .values w).dwindles.trans (.sweep _ s)).trans
    ((finalizing.wanes (.finalize _) quiet.cons).trans leaving).dwindles

/-- What a collection comes to for an object without a parent while no receiver is called. -/
theorem Deals.collect (tended : w.Tended o n) (quiet : Quiet moments)
    (runs : Runs (State.collectGarbage s) w moments (some (.ok ())) w') :
    Deals o n False w moments w' := by
  obtain ⟨w₁, w₂, first, second, rfl, once, again, leaving, -⟩ := runs.of_collectGarbage
  obtain ⟨during, after⟩ := Quiet.append.mp quiet.cons
  have alike := World.Alike.collecting w s
  have tended' := tended.of_same alike.objects alike.natives
  have both := (round tended' during once).append (once.dwindles_round during)
    (again.dwindles_round after) fun spares =>
      round (spares.tended tended' (once.dwindles_round during)) after again
  have begun := World.Alike.enter (.operation s) w
  have expired := begun.symm.trans alike
  have rounds : Deals o n False (w.collecting s) (first ++ second) w₂ := both.mono (by simp)
  have held : ((Scope.operation s).enter w).holdsNative n = true ↔
      (w.collecting s).holdsNative n = true ∨ False := by
    rw [expired.holdsNative, or_false]
  exact (rounds.of_step (expired.native? n) held).alike begun leaving

theorem State.safe_round (s : StateId) : (State.round s).Safe :=
  .within (.bind (P := fun _ => True) (.act fun _ _ => trivial) fun natives _ =>
    safe_finalize natives)

theorem World.Later.collecting (w : World) (s : StateId) : w.Later (w.collecting s) :=
  .tail (.single (.enter (.operation s) w)) (.op (o := .expire s) trivial)

/-- Every native object in a userdata that is not needed has its turn. -/
theorem Runs.turn (sound : w.Sound)
    (runs : Runs (State.collectGarbage s) w moments (some (.ok ())) w') {r : Ref} {m : NativeId}
    (here : r.owner = s) (cell : w.cell? r = some (.native m)) (lost : ¬ w.Needed r) :
    ∃ turn v v', turn <:+: moments ∧ w.Later v ∧ v'.Later w' ∧
      Runs (releaseNative m) v turn (some (.ok ())) v' := by
  subst here
  rw [State.collectGarbage_eq] at runs
  obtain ⟨w₂, inside, exited⟩ := runs.of_within
  obtain ⟨rest, rfl, sweeping⟩ := inside.of_perform
  obtain ⟨⟨⟩, w₁, first, second, rfl, once, again⟩ := sweeping.of_bind
  have begun := World.Later.collecting w r.owner
  have sound₁ := begun.sound sound
  have between := ((State.safe_round _ _ sound₁).passage sound₁ once).1.arrives
  have sound₂ := between.sound sound₁
  have after := ((State.safe_round _ _ sound₂).passage sound₂ again).1.arrives
  obtain ⟨w₃, within, closed⟩ := once.of_within
  obtain ⟨later, rfl, finalizing⟩ := within.of_perform
  obtain ⟨e, engine, there⟩ := Option.bind_eq_some_iff.mp cell
  have swept : (Scope.values.enter (w.collecting r.owner)).engine? r.owner = some e.collecting :=
    (w.engine?_collecting r.owner).trans (engine ▸ rfl)
  have member : m ∈ ((Scope.values.enter (w.collecting r.owner)).sweep r.owner).1 :=
    (World.mem_sweep swept).mpr ⟨r.index, there, fun leads =>
      lost ((World.leads_collecting engine).mp leads)⟩
  have sweeps : (w.collecting r.owner).Later
      ((Op.sweep r.owner).apply (Scope.values.enter (w.collecting r.owner))).2 :=
    .tail (.single (.enter .values _)) (.op (o := .sweep r.owner) trivial)
  have safe (k : NativeId) : (releaseNative k >>= fun _ =>
      Action.view (·.objects.next) >>= State.reapAll).Safe :=
    .bind (safe_releaseNative k) fun _ _ => .of_view fun _ _ => State.safe_reapAll _
  obtain ⟨both, v, v', within, before, onward, took⟩ :=
    finalizing.of_forM (fun k _ => safe k) (sweeps.sound sound₁) member
  obtain ⟨⟨⟩, v₁, turn, reaping, rfl, releasing, reaps⟩ := took.of_bind
  have early : w.Later v := begun.trans (sweeps.trans before)
  have soundᵥ := early.sound sound
  have released := ((safe_releaseNative m v soundᵥ).passage soundᵥ releasing).1.arrives
  have reaped : Action.Safe (Action.view (·.objects.next) >>= State.reapAll) :=
    .of_view fun _ _ => State.safe_reapAll _
  have sound₃ := released.sound soundᵥ
  have late := ((reaped v₁ sound₃).passage sound₃ reaps).1.arrives
  have left : w₃.Later w₁ := closed ▸ .single (.exit .values _ w₃)
  have ended : w₂.Later w' := exited ▸ .single (.exit _ _ w₂)
  refine ⟨turn, v, v₁, ?_, early, ((late.trans onward).trans left).trans (after.trans ended),
    releasing⟩
  obtain ⟨front, back, rfl⟩ := within
  exact ⟨.op (.expire r.owner) ((Scope.operation r.owner).enter w) ::
    .op (.sweep r.owner) (Scope.values.enter (w.collecting r.owner)) :: front,
    reaping ++ back ++ second, by simp [World.collecting, Op.apply]⟩

end Collection

variable {w w' : World} {moments during : List Moment} {s : StateId}

/-- Whether a native object is the wrapper that owns an object for a script. -/
def Native.keeps (o : ObjectId) : Native → Bool
  | .wrapper i true .script => i == o
  | _ => false

/-- Whether a place is one from which a state needs its cells. -/
def World.starts (w : World) (r : Ref) : Bool :=
  (w.engine? r.owner).any fun e => ({ e with stale := [] } : Engine).roots.contains r

/-- The object of which a native object is a wrapper or a method. -/
def Native.object? : Native → Option ObjectId
  | .wrapper o _ _ | .boundMethod o _ => some o
  | _ => none

/-- The method of an object that was constructed for scripts is kept, its wrapper is not. -/
def binding : List Step := [
  ⟨.openState .bare, []⟩, ⟨.registerType Samples.myObject true, []⟩,
  ⟨.construct 0 "Test::MyObject" [] .script, ["wrapper"]⟩,
  ⟨.index (.handle ⟨.userdata, ⟨0, 29⟩, 0⟩) (.text "foo"), ["method"]⟩,
  ⟨.letGo "wrapper", []⟩]

end ScriptBridge
