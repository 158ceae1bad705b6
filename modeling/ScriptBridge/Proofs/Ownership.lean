import Mathlib.Logic.ExistsUnique
import ScriptBridge.Proofs.Session
import ScriptBridge.Proofs.Wrappers

/-!
Who owns a host object: at most one wrapper, and the object knows whether there is one. What the end
of a wrapper means for the object that it wraps.
-/

namespace ScriptBridge

open ScriptBridge.Action (Meets)

namespace World

/-- Whether a wrapper has claimed an object. -/
def hasOwner (w : World) (o : ObjectId) : Bool := ((w.object? o).map (·.owned)).getD false

/-- A wrapper that is there and owns an object. -/
def Owns (w : World) (n : NativeId) (o : ObjectId) : Prop :=
  ∃ ownership, w.native? n = some (.wrapper o true ownership)

/-- Exactly the objects that are claimed have an owner, and none has two. -/
structure Claimed (w : World) : Prop where
  claims : ∀ n o, w.Owns n o → w.hasOwner o = true
  single : ∀ n m o, w.Owns n o → w.Owns m o → n = m
  owner : ∀ o, w.hasOwner o = true → ∃ n, w.Owns n o

variable {w w' : World}

theorem hasOwner_of_object? {o : ObjectId} {object : HostObject}
    (found : w.object? o = some object) :
    w.hasOwner o = object.owned := by
  simp [hasOwner, found]

theorem hasOwner_of_map {o : ObjectId}
    (same : (w'.object? o).map (·.owned) = (w.object? o).map (·.owned)) :
    w'.hasOwner o = w.hasOwner o := by
  simp only [hasOwner, same]

theorem hasOwner_retire (w : World) (i o : ObjectId) :
    (w.retire i).2.hasOwner o = w.hasOwner o := by
  have marked : ((w.markDestroyed i).object? o).map (·.owned) = (w.object? o).map (·.owned) := by
    refine map_modifyObject (fun object => ?_) o
    split <;> rfl
  refine hasOwner_of_map (((map_releaseChildren (fun _ _ _ => rfl) _ i o).trans ?_).trans marked)
  exact map_detach (fun _ _ _ => rfl) _ i o

theorem hasOwner_newObject (w : World) (cls : Class) (name : String) (o : ObjectId) :
    (w.newObject cls name).2.hasOwner o = w.hasOwner o := by
  unfold hasOwner
  rw [object?_newObject]
  split
  · rename_i new
    have none : w.object? o = none := Store.get?_of_next_le _ (Nat.le_of_eq new.symm)
    simp [none]
  · rfl

/-- Whatever sets the claim of an object sets that one only. -/
theorem hasOwner_claim (w : World) (i o : ObjectId) (claim : Bool) :
    (w.modifyObject i fun object => { object with owned := claim }).hasOwner o =
      if i = o ∧ (w.object? o).isSome then claim else w.hasOwner o := by
  unfold hasOwner
  rw [object?_modifyObject]
  by_cases same : i = o
  · cases w.object? o <;> simp [same]
  · simp [same]

namespace Claimed

theorem of_same (claimed : w.Claimed) (owners : ∀ o, w'.hasOwner o = w.hasOwner o)
    (owns : ∀ n o, w'.Owns n o ↔ w.Owns n o) : w'.Claimed where
  claims := by
    intro n o owner
    rw [owners]
    exact claimed.claims n o ((owns n o).mp owner)
  single := by
    intro n m o first second
    exact claimed.single n m o ((owns n o).mp first) ((owns m o).mp second)
  owner := by
    intro o has
    rw [owners] at has
    obtain ⟨n, owner⟩ := claimed.owner o has
    exact ⟨n, (owns n o).mpr owner⟩

theorem of_natives (claimed : w.Claimed) (owners : ∀ o, w'.hasOwner o = w.hasOwner o)
    (natives : w'.natives = w.natives) : w'.Claimed := by
  refine claimed.of_same owners fun n o => ?_
  simp only [Owns, native?, natives]

theorem empty : ({} : World).Claimed where
  claims := by
    rintro n o ⟨ownership, found⟩
    simp [native?] at found
  single := by
    rintro n m o ⟨ownership, found⟩
    simp [native?] at found
  owner := by
    intro o has
    simp [hasOwner, object?] at has

variable (claimed : w.Claimed)
include claimed

theorem newNative {native : Native} (plain : ¬ native.IsWrapper) :
    (w.newNative native).2.Claimed := by
  refine claimed.of_same (fun _ => rfl) fun n o => ?_
  unfold Owns
  rw [native?_newNative]
  split
  · rename_i new
    have none : w.native? n = none := Store.get?_of_next_le _ (Nat.le_of_eq new.symm)
    constructor
    · rintro ⟨ownership, same⟩
      obtain rfl := Option.some.inj same
      exact absurd trivial plain
    · rintro ⟨ownership, found⟩
      rw [none] at found
      cases found
  · exact Iff.rfl

theorem setCount (n : NativeId) (count : Int64) : (w.setCount n count).Claimed := by
  refine claimed.of_same (fun _ => rfl) fun m o => ?_
  unfold Owns
  rw [show (w.setCount n count).native? m = _ from Store.get?_modify ..]
  unfold native?
  split
  · cases w.natives.get? m with
    | none => simp
    | some native => cases native <;> simp
  · exact Iff.rfl

/-- An object that nobody owns gets an owner. -/
theorem claim {i : ObjectId} {n : NativeId} (free : w.hasOwner i = false)
    (owners : ∀ o, w'.hasOwner o = if i = o then true else w.hasOwner o)
    (owns : ∀ m o, w'.Owns m o ↔ w.Owns m o ∨ m = n ∧ o = i) : w'.Claimed := by
  have unowned (m : NativeId) : ¬ w.Owns m i := by
    intro owner
    rw [claimed.claims m i owner] at free
    cases free
  constructor
  · intro m o owner
    rw [owners]
    rcases (owns m o).mp owner with old | ⟨-, rfl⟩
    · split
      · rfl
      · exact claimed.claims m o old
    · simp
  · intro m k o first second
    rcases (owns m o).mp first with old | ⟨rfl, rfl⟩
    · rcases (owns k o).mp second with old' | ⟨rfl, rfl⟩
      · exact claimed.single m k o old old'
      · exact absurd old (unowned m)
    · rcases (owns k o).mp second with old | ⟨rfl, -⟩
      · exact absurd old (unowned k)
      · rfl
  · intro o has
    rw [owners] at has
    split at has
    · rename_i here
      exact ⟨n, (owns n o).mpr (.inr ⟨rfl, here.symm⟩)⟩
    · obtain ⟨m, owner⟩ := claimed.owner o has
      exact ⟨m, (owns m o).mpr (.inl owner)⟩

/-- The owner of an object gives it up. -/
theorem release {i : ObjectId} {n : NativeId} (owner : w.Owns n i)
    (owners : ∀ o, w'.hasOwner o = if i = o then false else w.hasOwner o)
    (owns : ∀ m o, w'.Owns m o ↔ n ≠ m ∧ w.Owns m o) : w'.Claimed := by
  constructor
  · intro m o still
    obtain ⟨other, still⟩ := (owns m o).mp still
    rw [owners, if_neg]
    · exact claimed.claims m o still
    · rintro rfl
      exact other (claimed.single n m i owner still)
  · intro m k o first second
    exact claimed.single m k o ((owns m o).mp first).2 ((owns k o).mp second).2
  · intro o has
    rw [owners] at has
    split at has
    · cases has
    · rename_i elsewhere
      obtain ⟨m, still⟩ := claimed.owner o has
      refine ⟨m, (owns m o).mpr ⟨?_, still⟩⟩
      rintro rfl
      obtain ⟨_, found⟩ := owner
      obtain ⟨_, found'⟩ := still
      obtain ⟨rfl, -⟩ := Native.wrapper.inj (Option.some.inj (found.symm.trans found'))
      exact elsewhere rfl

/-- A new wrapper claims its object if nobody else has. -/
theorem newWrapper (i : ObjectId) (ownership : Ownership) :
    (w.newWrapper i ownership).2.Claimed := by
  have look (n : NativeId) : (w.newWrapper i ownership).2.native? n =
      if n = w.natives.next then
        some (.wrapper i (!((w.object? i).map (·.owned)).getD true) ownership)
      else w.native? n := native?_newNative _ _ n
  have nothing : w.native? w.natives.next = none := Store.get?_of_next_le _ (Nat.le_refl _)
  have owners (o : ObjectId) : (w.newWrapper i ownership).2.hasOwner o =
      if i = o ∧ (w.object? o).isSome then true else w.hasOwner o := hasOwner_claim w i o true
  cases taken : ((w.object? i).map (·.owned)).getD true with
  | true =>
    refine claimed.of_same (fun o => ?_) fun n o => ?_
    · rw [owners]
      split
      · rename_i here
        obtain ⟨object, there⟩ := Option.isSome_iff_exists.mp here.2
        rw [here.1, there] at taken
        exact ((hasOwner_of_object? there).trans taken).symm
      · rfl
    · unfold Owns
      rw [look, taken]
      split
      · rename_i new
        subst new
        simp [nothing]
      · exact Iff.rfl
  | false =>
    obtain ⟨object, there, free⟩ : ∃ object, w.object? i = some object ∧ object.owned = false := by
      cases there : w.object? i with
      | none => simp [there] at taken
      | some object => exact ⟨object, rfl, by simpa [there] using taken⟩
    refine claimed.claim (i := i) (n := w.natives.next) ?_ (fun o => ?_) fun m o => ?_
    · rw [hasOwner_of_object? there, free]
    · rw [owners]
      by_cases same : i = o
      · simp [← same, there]
      · simp [same]
    · unfold Owns
      rw [look, taken]
      split
      · rename_i new
        subst new
        simp [nothing, eq_comm]
      · rename_i old
        simp [old]

/-- A wrapper that ends gives up its claim, and nobody else has one. -/
theorem dropNative (n : NativeId) : (w.dropNative n).2.Claimed := by
  have look (m : NativeId) := native?_dropNative w n m
  cases held : w.holdsNative n with
  | true => simpa [World.dropNative, held] using claimed
  | false =>
    simp only [held, true_and] at look
    by_cases owner : ∃ i, w.Owns n i
    · obtain ⟨i, ownership, found⟩ := owner
      refine claimed.release ⟨ownership, found⟩ (fun o => ?_) fun m o => ?_
      · simp only [World.dropNative, held, Bool.false_eq_true, if_false, found]
        refine (hasOwner_claim { w with natives := w.natives.erase n } i o false).trans ?_
        by_cases same : i = o
        · simp +contextual [same, hasOwner, object?]
        · simp [same, hasOwner, object?]
      · unfold Owns
        rw [look]
        by_cases same : n = m <;> simp [same]
    · have owners (o : ObjectId) : (w.dropNative n).2.hasOwner o = w.hasOwner o := by
        simp only [World.dropNative, held, Bool.false_eq_true, if_false]
        split
        · rfl
        · rename_i native found
          split
          · exact absurd ⟨_, _, found⟩ owner
          · rfl
      refine claimed.of_same owners fun m o => ?_
      unfold Owns
      rw [look]
      split
      · rename_i same
        subst same
        have none : ¬ w.Owns n o := fun owns => owner ⟨o, owns⟩
        simpa [Owns] using none
      · exact Iff.rfl

/-- An object that nothing holds has no owner. -/
theorem reap : (Op.reap.apply w).2.Claimed := by
  simp only [Op.apply, World.reap]
  cases found : w.objects.ids.find? (!w.heldObjects.contains ·) with
  | none => exact claimed
  | some i =>
    have unheld : i ∉ w.heldObjects := by simpa using List.find?_some found
    have free : w.hasOwner i = false := by
      cases has : w.hasOwner i with
      | false => rfl
      | true =>
        obtain ⟨n, ownership, wrapper⟩ := claimed.owner i has
        have item := Store.mem_items.mpr ⟨n, wrapper⟩
        have held : i ∈ w.heldObjects :=
          List.mem_append_right _ (List.mem_filterMap.mpr ⟨_, item, rfl⟩)
        exact absurd held unheld
    have released (o : ObjectId) : (w.releaseChildren i).hasOwner o = w.hasOwner o :=
      hasOwner_of_map (map_releaseChildren (fun _ _ _ => rfl) w i o)
    refine claimed.of_natives (fun o => ?_) (OnlyObjects.releaseChildren w i).natives
    by_cases same : i = o
    · rw [← same, free]
      simp [hasOwner, object?, Store.get?_erase]
    · rw [← released]
      simp [hasOwner, object?, Store.get?_erase, same]

theorem of_objects {w' : World} (objects : w'.objects = w.objects)
    (natives : w'.natives = w.natives) : w'.Claimed :=
  claimed.of_natives (fun o => by simp only [hasOwner, object?, objects]) natives

theorem op (o : Op β) (permitted : o.Permitted w) : (o.apply w).2.Claimed := by
  have plain {i : ObjectId} {f : HostObject → HostObject}
      (keeps : ∀ object, (f object).owned = object.owned) : (w.modifyObject i f).Claimed :=
    claimed.of_natives (fun o => hasOwner_of_map (map_modifyObject keeps o)) rfl
  by_cases touches : o.Touches ∨ o.TouchesNatives
  · cases o with
    | newObject cls name => exact claimed.of_natives (hasOwner_newObject w cls name) rfl
    | rename | store | connect | disconnect | disconnectId => exact plain fun _ => rfl
    | setParent i parent =>
      refine claimed.of_natives (fun o => ?_) (OnlyObjects.setParent w i parent).natives
      exact hasOwner_of_map (map_setParent (fun _ _ _ => rfl) w i parent o)
    | retire i => exact claimed.of_natives (hasOwner_retire w i) (OnlyObjects.retire w i).natives
    | markDestroyed => exact permitted.elim
    | newNative native => exact claimed.newNative permitted
    | newWrapper i ownership => exact claimed.newWrapper i ownership
    | setCount n count => exact claimed.setCount n count
    | dropNative n => exact claimed.dropNative n
    | reap => exact claimed.reap
    | _ => exact touches.elim False.elim False.elim
  · rw [not_or] at touches
    exact claimed.of_objects (Op.objects_apply w touches.1) (Op.natives_apply w touches.2)

theorem change (change : w.Change w') : w'.Claimed := by
  have alike {w' : World} (alike : w.Alike w') : w'.Claimed :=
    claimed.of_objects alike.objects alike.natives
  cases change with
  | op permitted => exact claimed.op _ permitted
  | enter scope => exact alike (.enter scope w)
  | exit scope result => exact alike (.exit scope result w)
  | retain s kept =>
    refine claimed.of_objects (objects_retain w s kept) ?_
    unfold retain
    split <;> rfl

end Claimed

end World

variable {w w' : World} {o : ObjectId} {moments : List Moment}

/-- The destruction of an object that is alive has destroyed it when it is over. -/
theorem destroyed_of_destroyObject (sound : w.Sound) (alive : w.isDestroyed o = false)
    (runs : Runs (destroyObject o) w moments (some (.ok ())) w') : w'.isDestroyed o = true := by
  obtain ⟨object, there, -⟩ := World.object_of_alive alive
  have made : World.Made o w := World.lt_next_of_object? there
  obtain ⟨_, -, runs⟩ := runs.of_perform
  rw [show (Op.apply (.view (·.isDestroyed o)) w).1 = false from alive] at runs
  obtain ⟨_, -, runs⟩ := runs.of_perform
  have retiring {w₁ : World} {moments : List Moment} (later : w.Later w₁)
      (runs : Runs (do
        let children ← .perform (.retire o)
        children.forM fun child => .ask (.destroy child)) w₁ moments (some (.ok ())) w') :
      w'.isDestroyed o = true := by
    obtain ⟨_, -, runs⟩ := runs.of_perform
    have gone : World.Gone o ((Op.retire o).apply w₁).2 :=
      ⟨(made.later later).op (.retire o) w₁ trivial, by simp [Op.apply, World.isDestroyed_retire]⟩
    have sound₁ := Op.Permitted.sound (o := .retire o) trivial (later.sound sound)
    have children : Action.Safe (((Op.retire o).apply w₁).1.forM fun child =>
        Action.ask (.destroy child)) :=
      .forM fun child _ => .ask trivial fun _ _ _ _ => trivial
    exact (gone.later ((children _ sound₁).passage sound₁ runs).1.arrives).2
  dsimp only at runs
  split at runs
  · obtain ⟨_, _, _, _, -, emitting, runs⟩ := runs.of_bind
    have safe : Action.Safe (discard (Action.attempt (emitSignal o "destroyed()" []))) :=
      .discard (.attempt (safe_emitSignal o _ _))
    exact retiring ((safe _ sound).passage sound emitting).1.arrives runs
  · exact retiring .refl runs

/-- What a destruction that is asked for comes to. -/
theorem destroyed_of_ask (sound : w.Sound) (alive : w.isDestroyed o = false)
    {result : Except Fault Unit} (runs : Runs (.ask (.destroy o)) w moments (some result) w') :
    (∃ later, moments = .request (.destroy o) w :: later) ∧
      (result = .ok () → w'.isDestroyed o = true) := by
  change Runs (.request (.destroy o) .pure) w moments _ w' at runs
  cases runs with
  | requestFailed begins inner => exact ⟨⟨_, rfl⟩, fun none => by cases none⟩
  | requestDone begins inner rest =>
    refine ⟨⟨_, rfl⟩, fun _ => ?_⟩
    cases rest
    cases begins with
    | program => exact destroyed_of_destroyObject sound alive inner
    | refused => cases inner

namespace World

theorem dropNative_fst {n : NativeId} {native : Native} (found : w.native? n = some native)
    (unheld : w.holdsNative n = false) : (w.dropNative n).1 = some native := by
  simp only [dropNative, unheld, Bool.false_eq_true, if_false, found]
  split <;> rfl

/-- The end of a native object leaves the tree alone. -/
theorem map_dropNative {γ : Type} {g : HostObject → γ}
    (keeps : ∀ (object : HostObject) owned, g { object with owned := owned } = g object) (w : World)
    (n : NativeId) (i : ObjectId) :
    ((w.dropNative n).2.object? i).map g = (w.object? i).map g := by
  rcases objects_dropNative w n with same | ⟨j, same⟩
  · simp only [object?, same]
  · have changed := map_modifyObject (w := w) (i := j) (f := fun object =>
      { object with owned := false }) (fun object => keeps object false) i
    simpa only [object?, same] using changed

theorem isDestroyed_dropNative (w : World) (n : NativeId) (i : ObjectId) :
    (w.dropNative n).2.isDestroyed i = w.isDestroyed i :=
  congrArg (Option.getD · true) (map_dropNative (fun _ _ => rfl) w n i)

theorem parentOf_dropNative (w : World) (n : NativeId) (i : ObjectId) :
    (w.dropNative n).2.parentOf i = w.parentOf i := by
  have look (w : World) : w.parentOf i = ((w.object? i).map (·.parent)).join := by
    unfold parentOf
    cases w.object? i <;> rfl
  rw [look, look, map_dropNative fun _ _ => rfl]

end World

section Released

variable {n : NativeId} {owning : Bool} {ownership : Ownership} {result : Except Fault Unit}
  (found : w.native? n = some (.wrapper o owning ownership)) (unheld : w.holdsNative n = false)
include found unheld

end Released

/-- What wrapping an object in an open state gives stays what wrapping it there gives. -/
theorem wrapped (sound : w.Sound) {s : StateId} (isOpen : w.isOpen s) {own : Ownership}
    {result : Except Fault Value} (runs : Runs (wrapObject s o own) w moments (some result) w') :
    ∃ r a n owning ownership, result = .ok (.handle ⟨.userdata, r, a⟩) ∧
      w'.Wraps s o r n owning ownership ∧
      (w.wrapperOf? s o = none →
        ownership = own ∧ ∀ object, w.object? o = some object → owning = !object.owned) := by
  cases remembered : w.wrapperOf? s o with
  | some r =>
    obtain ⟨n, owning, ownership, wraps⟩ := World.Wraps.of_wrapperOf? sound remembered
    obtain ⟨⟨a, rfl⟩, alike⟩ := ((wraps.meets_wrapObject own).passage sound runs).2 _ rfl
    exact ⟨r, a, n, owning, ownership, rfl, wraps.alike alike, fun none => by cases none⟩
  | none =>
    obtain ⟨r, a, rfl, wraps⟩ :=
      ((meets_wrapObject sound isOpen remembered own).passage sound runs).2 _ rfl
    refine ⟨r, a, _, _, _, rfl, wraps, fun _ => ⟨rfl, fun object there => ?_⟩⟩
    rw [there]
    rfl

end ScriptBridge
