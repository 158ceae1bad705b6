import ScriptBridge.Proofs.Disposal

/-!
A host object without a parent and the wrapper that owns it for a script. Whatever is disposed of
while no receiver of a signal is called, either the wrapper goes and destroys the object, or both
are left as they were.
-/

namespace ScriptBridge

section Tended

variable (o : ObjectId) (n : NativeId)

/-- An object without a parent of which a script owns at most one wrapper, and is alive with it. -/
structure World.Tended (w : World) : Prop where
  root : w.parentOf o = none
  stray : ∀ p, o ∉ w.childrenOf p
  only : ∀ m, w.native? m = some (.wrapper o true .script) → m = n
  alive : w.native? n = some (.wrapper o true .script) → w.isDestroyed o = false

/-- The object has lost its owner, and that has destroyed it. The owner had been held, or there was
some other reason to let it go. -/
structure Fells (reason : Prop) (w : World) (moments : List Moment) (w' : World) : Prop where
  owner : w.native? n = some (.wrapper o true .script)
  held : w.holdsNative n = true ∨ reason
  asked : ∃ v, .request (.destroy o) v ∈ moments
  unheld : w'.holdsNative n = false
  destroyed : w'.isDestroyed o = true

/-- The object has kept its owner, if it had one, and has been left alone. -/
structure Spares (reason : Prop) (w : World) (moments : List Moment) (w' : World) : Prop where
  silent : ∀ v, .request (.destroy o) v ∉ moments
  owner : w.native? n = some (.wrapper o true .script) →
    w'.native? n = some (.wrapper o true .script) ∧ w'.isDestroyed o = false
  held : w.native? n = some (.wrapper o true .script) → w.holdsNative n = true ∨ reason →
    w'.holdsNative n = true

/-- What some moments come to for an object and its owner. -/
def Deals (reason : Prop) (w : World) (moments : List Moment) (w' : World) : Prop :=
  Fells o n reason w moments w' ∨ Spares o n reason w moments w'

end Tended

variable {o : ObjectId} {n : NativeId} {w w₁ w' : World} {moments later : List Moment}
  {reason reason' : Prop}

theorem World.Tended.dwindles (tended : w.Tended o n) (dwindles : w.Dwindles w')
    (alive : w.native? n = some (.wrapper o true .script) → w'.isDestroyed o = false) :
    w'.Tended o n where
  root := dwindles.orphans o tended.root
  stray := fun p child => tended.stray p (dwindles.children p child)
  only := fun m found => tended.only m (dwindles.natives m _ found)
  alive := fun found => alive (dwindles.natives n _ found)

theorem Spares.tended (spares : Spares o n reason w moments w') (tended : w.Tended o n)
    (dwindles : w.Dwindles w') : w'.Tended o n :=
  tended.dwindles dwindles fun owner => (spares.owner owner).2

/-- Two stretches of a run, one after the other. -/
theorem Deals.append (first : Deals o n reason w moments w₁) (before : w.Dwindles w₁)
    (after : w₁.Dwindles w')
    (second : Spares o n reason w moments w₁ → Deals o n reason' w₁ later w') :
    Deals o n (reason ∨ reason') w (moments ++ later) w' := by
  rcases first with fells | spares
  · obtain ⟨v, asked⟩ := fells.asked
    exact .inl ⟨fells.owner, fells.held.imp_right .inl, ⟨v, by simp [asked]⟩,
      after.unheld fells.unheld, after.destroyed o fells.destroyed⟩
  · rcases second spares with fells | spares'
    · obtain ⟨v, asked⟩ := fells.asked
      refine .inl ⟨before.natives n _ fells.owner, ?_, ⟨v, by simp [asked]⟩, fells.unheld,
        fells.destroyed⟩
      rcases fells.held with held | why
      · exact .inl (before.held n held)
      · exact .inr (.inr why)
    · refine .inr ⟨fun v => by simp [spares.silent v, spares'.silent v], fun owner => ?_, ?_⟩
      · exact spares'.owner (spares.owner owner).1
      · intro owner why
        refine spares'.held (spares.owner owner).1 ?_
        rcases why with held | why | why
        · exact .inl (spares.held owner (.inl held))
        · exact .inl (spares.held owner (.inr why))
        · exact .inr why


namespace Deals

/-- An elementary operation that makes nothing is no more than it was before. -/
theorem of_step {β : Type} {op : Op β} (natives : w₁.native? n = w.native? n)
    (held : w.holdsNative n = true ↔ w₁.holdsNative n = true ∨ reason)
    (deals : Deals o n reason w₁ moments w') :
    Deals o n False w (.op op w :: moments) w' := by
  rcases deals with fells | spares
  · obtain ⟨v, asked⟩ := fells.asked
    exact .inl ⟨natives ▸ fells.owner, .inl (held.mpr fells.held), ⟨v, by simp [asked]⟩,
      fells.unheld, fells.destroyed⟩
  · refine .inr ⟨fun v => by simp [spares.silent v], fun owner => ?_, fun owner why => ?_⟩
    · exact spares.owner (natives ▸ owner)
    · exact spares.held (natives ▸ owner) (held.mp (why.resolve_right id))

end Deals


/-- Where cells and stored values are the same, native objects are held alike. -/
theorem World.holdsNative_congr (cells : ∀ r, w'.cell? r = w.cell? r)
    (values : ∀ i, (w'.object? i).map (·.values) = (w.object? i).map (·.values)) (m : NativeId) :
    w'.holdsNative m = w.holdsNative m := by
  have look {w w' : World} (cells : ∀ r, w'.cell? r = w.cell? r)
      (values : ∀ i, (w'.object? i).map (·.values) = (w.object? i).map (·.values))
      (held : w'.holdsNative m = true) : w.holdsNative m = true := by
    rw [holdsNative_iff] at held ⊢
    rcases held with ⟨r, cell⟩ | ⟨i, object, found, v, member, holds⟩
    · exact .inl ⟨r, (cells r).symm.trans cell⟩
    · have same := values i
      rw [found] at same
      obtain ⟨after, there, equal⟩ := Option.map_eq_some_iff.mp same.symm
      exact .inr ⟨i, after, there, v, equal ▸ member, holds⟩
  rw [Bool.eq_iff_iff]
  exact ⟨look cells values, look (fun r => (cells r).symm) fun i => (values i).symm⟩

theorem World.Alike.holdsNative (alike : w.Alike w') (m : NativeId) :
    w'.holdsNative m = w.holdsNative m :=
  holdsNative_congr alike.cell? (fun i => by simp only [object?, alike.objects]) m

theorem World.holdsNative_retire (w : World) (p : ObjectId) (m : NativeId) :
    (w.retire p).2.holdsNative m = w.holdsNative m :=
  holdsNative_congr (Wanes.retire w p).cell? (Wanes.values_retire w p) m

theorem World.holdsNative_dropNative (w : World) (k m : NativeId) :
    (w.dropNative k).2.holdsNative m = w.holdsNative m :=
  holdsNative_congr (Wanes.dropNative w k).cell? (map_dropNative (fun _ _ => rfl) w k) m

theorem World.retire_subset (w : World) (p : ObjectId) : (w.retire p).1 ⊆ w.childrenOf p := by
  have kept : (w.markDestroyed p).childrenOf p = w.childrenOf p := by
    refine w.childrenOf_modifyObject (fun object => ?_) p
    split <;> rfl
  simp only [World.retire, childrenOf_detach, kept]
  split
  · exact List.filter_subset_self _
  · exact fun _ => id

/-- Nothing has been done to the object, its owner and what holds that. -/
theorem Spares.of_same (tended : w.Tended o n) (silent : ∀ v, .request (.destroy o) v ∉ moments)
    (natives : w'.native? n = w.native? n) (alive : w'.isDestroyed o = w.isDestroyed o)
    (held : w'.holdsNative n = w.holdsNative n) : Spares o n False w moments w' where
  silent := silent
  owner := fun owner => ⟨natives.trans owner, alive.trans (tended.alive owner)⟩
  held := fun _ why => held.trans (why.resolve_right id)

theorem Spares.append (first : Spares o n False w moments w₁)
    (second : Spares o n False w₁ later w') : Spares o n False w (moments ++ later) w' where
  silent := fun v => by simp [first.silent v, second.silent v]
  owner := fun owner => second.owner (first.owner owner).1
  held := fun owner why => second.held (first.owner owner).1 (.inl (first.held owner why))

/-- The destruction of other objects spares an object without a parent. -/
theorem Spares.destroy {p : ObjectId} (other : p ≠ o) (tended : w.Tended o n)
    (runs : Runs (.ask (.destroy p)) w moments (some (.ok ())) w') (quiet : Quiet moments) :
    Spares o n False w moments w' := by
  -- The destruction of a child takes fewer moments than that of its parent.
  induction bound : moments.length using Nat.strong_induction_on generalizing p w w' moments with
  | _ size ih =>
  have children (items : List ObjectId) {w : World} {later : List Moment} (tended : w.Tended o n)
      (others : o ∉ items) (quiet : Quiet later) (fewer : later.length < size)
      (runs : Runs (items.forM fun child => .ask (.destroy child)) w later (some (.ok ())) w') :
      Spares o n False w later w' := by
    induction items generalizing w later with
    | nil =>
      obtain ⟨rfl, -, rfl⟩ := runs.of_pure
      exact .of_same tended (by simp) rfl rfl rfl
    | cons child rest next =>
      obtain ⟨⟨⟩, w₁, first, later, rfl, here, going⟩ := runs.of_bind
      obtain ⟨during, after⟩ := Quiet.append.mp quiet
      rw [List.length_append] at fewer
      have spares := ih first.length (by omega) (fun same => others (same ▸ .head _)) tended here
        during rfl
      have wanes := here.wanes (Action.Disposing.ask trivial) during
      exact spares.append (next (spares.tended tended wanes.dwindles)
        (fun member => others (.tail _ member)) after (by omega) going)
  obtain ⟨inner, rfl, destroying⟩ := runs.of_destroy
  cases dead : w.isDestroyed p with
  | true =>
    obtain ⟨looks, rfl, looked⟩ := destroying.of_perform
    rw [show (Op.apply (.view (·.isDestroyed p)) w).1 = true from dead] at looked
    obtain ⟨rfl, -, rfl⟩ := looked.of_pure
    exact .of_same tended (by simp [other.symm]) rfl rfl rfl
  | false =>
    obtain ⟨told, w₁, later, rfl, telling, going⟩ := destroying.of_destroyObject dead
    have hushed := Quiet.append.mp quiet.cons.cons.cons
    have announced : w.Wanes w₁ ∧ w.Alike w₁ ∧
        ∀ β (r : Request β) v, Moment.request r v ∉ told := by
      split at telling
      · exact ⟨telling.wanes (.announce p) hushed.1, telling.of_announce hushed.1⟩
      · obtain ⟨rfl, rfl⟩ := telling
        exact ⟨.refl _, .refl _, by simp⟩
    obtain ⟨wanes, alike, wordless⟩ := announced
    have natives : (w₁.retire p).2.native? n = w.native? n := by
      rw [World.native?, (World.OnlyObjects.retire w₁ p).natives]
      exact alike.native? n
    have alive : (w₁.retire p).2.isDestroyed o = w.isDestroyed o := by
      simp [World.isDestroyed_retire, other, alike.isDestroyed]
    have held : (w₁.retire p).2.holdsNative n = w.holdsNative n :=
      (World.holdsNative_retire w₁ p n).trans (alike.holdsNative n)
    have tended' : (w₁.retire p).2.Tended o n :=
      tended.dwindles (wanes.trans (.retire w₁ p)).dwindles fun owner =>
        alive.trans (tended.alive owner)
    have others : o ∉ (w₁.retire p).1 := fun child =>
      tended.stray p (wanes.children p (World.retire_subset w₁ p child))
    have fewer : later.length < size := by
      rw [← bound]
      simp only [List.length_cons, List.length_append]
      omega
    have spares := children _ tended' others hushed.2.cons fewer going
    constructor
    · simp [wordless, spares.silent, other.symm]
    · exact fun owner => spares.owner (natives.trans owner)
    · exact fun owner why => spares.held (natives.trans owner) (why.imp_left held.trans)


/-- A destruction during which no receiver is called has destroyed its object. -/
theorem Runs.destroyed_of_quiet {p : ObjectId}
    (runs : Runs (.ask (.destroy p)) w moments (some (.ok ())) w') (quiet : Quiet moments) :
    w'.isDestroyed p = true := by
  obtain ⟨inner, rfl, destroying⟩ := runs.of_destroy
  cases dead : w.isDestroyed p with
  | true => exact (runs.wanes (.ask trivial) quiet).destroyed p dead
  | false =>
    obtain ⟨told, w₁, later, rfl, -, going⟩ := destroying.of_destroyObject dead
    have hushed := Quiet.append.mp quiet.cons.cons.cons
    have wanes := going.wanes (.forM fun _ => .ask trivial) hushed.2.cons
    exact wanes.destroyed p (by simp [World.isDestroyed_retire])

/-- A native object is taken out unless something holds it. -/
theorem World.dropNative_cases (w : World) (m : NativeId) :
    (w.dropNative m = (none, w) ∧ (w.holdsNative m = true ∨ w.native? m = none)) ∨
      ∃ native, w.holdsNative m = false ∧ w.native? m = some native ∧
        (w.dropNative m).1 = some native := by
  cases held : w.holdsNative m with
  | true => exact .inl ⟨by simp [dropNative, held], .inl rfl⟩
  | false =>
    cases found : w.native? m with
    | none => exact .inl ⟨by simp [dropNative, held, found], .inr rfl⟩
    | some native => exact .inr ⟨native, rfl, rfl, dropNative_fst found held⟩

/-- The native object that a world loses is not the owner of the object. -/
theorem Spares.drop {m : NativeId} (tended : w.Tended o n)
    (other : m = n → w.native? n ≠ some (.wrapper o true .script)) :
    Spares o n (m = n) w [.op (.dropNative m) w] (w.dropNative m).2 where
  silent := by simp
  owner := by
    intro owner
    have kept : m ≠ n := fun same => other same owner
    rw [World.native?_dropNative, if_neg fun both => kept both.2, World.isDestroyed_dropNative]
    exact ⟨owner, tended.alive owner⟩
  held := by
    intro owner why
    rw [World.holdsNative_dropNative]
    exact why.resolve_right fun same => other same owner

namespace Deals

/-- The end of a native object means the end of an object only if it was its owner. -/
theorem release {m : NativeId} (tended : w.Tended o n)
    (runs : Runs (releaseNative m) w moments (some (.ok ())) w') (quiet : Quiet moments) :
    Deals o n (m = n) w moments w' := by
  have all := runs.wanes (.releaseNative m) quiet
  obtain ⟨rest, rfl, dropped⟩ := runs.of_perform
  rcases w.dropNative_cases m with ⟨same, loose⟩ | ⟨native, unheld, found, taken⟩
  · rw [show (Op.dropNative m).apply w = _ from same] at dropped
    obtain ⟨rfl, -, rfl⟩ := dropped.of_pure
    refine .inr ⟨by simp, fun owner => ⟨owner, tended.alive owner⟩, fun owner why => ?_⟩
    rcases why with held | rfl
    · exact held
    · exact loose.resolve_right (by simp [owner])
  · rw [show ((Op.dropNative m).apply w).1 = _ from taken] at dropped
    have wanes := World.Wanes.dropNative w m
    split at dropped
    · rename_i p same
      obtain rfl := Option.some.inj same
      obtain ⟨later, rfl, looked⟩ := dropped.of_perform
      change Runs (if ((w.dropNative m).2.parentOf p).isNone && !(w.dropNative m).2.isDestroyed p then
        .ask (.destroy p) else pure ()) (w.dropNative m).2 later (some (.ok ())) w' at looked
      by_cases own : p = o
      · subst own
        obtain rfl := tended.only m found
        rw [World.parentOf_dropNative, World.isDestroyed_dropNative, tended.root,
          tended.alive found] at looked
        obtain ⟨inner, asked, -⟩ := Runs.of_destroy looked
        refine .inl ⟨found, .inr rfl, ⟨(w.dropNative m).2, by simp [asked]⟩,
          all.dwindles.unheld unheld, ?_⟩
        exact Runs.destroyed_of_quiet looked quiet.cons.cons
      · have other : m = n → w.native? n ≠ some (.wrapper o true .script) := by
          rintro rfl owner
          rw [found] at owner
          cases owner
          exact own rfl
        have dropping := Spares.drop tended other
        split at looked
        · have spares :=
            Spares.destroy own (dropping.tended tended wanes.dwindles) looked quiet.cons.cons
          refine .inr ⟨?_, fun owner => spares.owner (dropping.owner owner).1, fun owner why => ?_⟩
          · simp [spares.silent]
          · exact spares.held (dropping.owner owner).1 (.inl (dropping.held owner why))
        · obtain ⟨rfl, -, rfl⟩ := looked.of_pure
          exact .inr ⟨by simp, dropping.owner, dropping.held⟩
    · rename_i others
      obtain ⟨rfl, -, rfl⟩ := dropped.of_pure
      refine .inr (.drop tended ?_)
      rintro rfl owner
      exact others o (found.symm.trans owner)

theorem mono (deals : Deals o n reason w moments w') (equal : reason ↔ reason') :
    Deals o n reason' w moments w' :=
  propext equal ▸ deals

/-- Nothing has happened. -/
theorem idle (tended : w.Tended o n) : Deals o n False w [] w :=
  .inr (.of_same tended (by simp) rfl rfl rfl)

/-- One program after another, for a list of native objects. -/
theorem forM {f : NativeId → Action Unit} (disposing : ∀ m, (f m).Disposing)
    (each : ∀ m {w moments w'}, w.Tended o n → Quiet moments →
      Runs (f m) w moments (some (.ok ())) w' → Deals o n (m = n) w moments w')
    {items : List NativeId} (tended : w.Tended o n) (quiet : Quiet moments)
    (runs : Runs (items.forM f) w moments (some (.ok ())) w') :
    Deals o n (n ∈ items) w moments w' := by
  induction items generalizing w moments with
  | nil =>
    obtain ⟨rfl, -, rfl⟩ := runs.of_pure
    exact (idle tended).mono (by simp)
  | cons m rest ih =>
    obtain ⟨⟨⟩, w₁, first, later, rfl, here, going⟩ := runs.of_bind
    obtain ⟨during, after⟩ := Quiet.append.mp quiet
    have wanes := here.wanes (disposing m) during
    have onward := going.wanes (.forM disposing) after
    have both := (each m tended during here).append wanes.dwindles onward.dwindles
      fun spares => ih (spares.tended tended wanes.dwindles) after going
    exact both.mono (by rw [List.mem_cons, eq_comm])

/-- An object whose owner is there is not taken out. -/
theorem isDestroyed_reap (owner : w.native? n = some (.wrapper o true .script)) :
    (Op.reap.apply w).2.isDestroyed o = w.isDestroyed o := by
  simp only [Op.apply, World.reap]
  cases found : w.objects.ids.find? (!w.heldObjects.contains ·) with
  | none => rfl
  | some i =>
    have other : i ≠ o := by
      rintro rfl
      have unheld : i ∉ w.heldObjects := by simpa using List.find?_some found
      have item := Store.mem_items.mpr ⟨n, owner⟩
      exact unheld (List.mem_append_right _ (List.mem_filterMap.mpr ⟨_, item, rfl⟩))
    have released := w.isDestroyed_releaseChildren i o
    simpa [World.isDestroyed, World.object?, Store.get?_erase, other] using released

/-- What a world holds less of when a host object has been taken out, that object has held. -/
theorem holdsNative_reap {natives : List NativeId} (reaped : w.reap = some (natives, w₁)) :
    w.holdsNative n = true ↔ w₁.holdsNative n = true ∨ n ∈ natives := by
  have wanes : w.Wanes w₁ := by
    have taken := World.Wanes.reap w
    rwa [show Op.reap.apply w = (some natives, w₁) by simp [Op.apply, reaped]] at taken
  unfold World.reap at reaped
  dsimp only at reaped
  split at reaped
  · cases reaped
  · rename_i i taken
    obtain ⟨rfl, rfl⟩ := Prod.mk.inj (Option.some.inj reaped)
    constructor
    · intro held
      rw [World.holdsNative_iff] at held ⊢
      rcases held with ⟨r, cell⟩ | ⟨j, object, found, v, member, holds⟩
      · exact .inl (.inl ⟨r, (wanes.cell? r).trans cell⟩)
      · by_cases same : i = j
        · subst same
          exact .inr (by simpa [found] using ⟨v.1, v.2, member, holds⟩)
        · have kept := World.map_releaseChildren (g := (·.values)) (fun _ _ _ => rfl) w i j
          rw [found] at kept
          obtain ⟨object', there, values⟩ := Option.map_eq_some_iff.mp kept
          refine .inl (.inr ⟨j, object', ?_, v, values ▸ member, holds⟩)
          exact (Store.get?_erase _ i j).trans ((if_neg same).trans there)
    · rintro (held | member)
      · exact wanes.holdsNative held
      · cases found : w.object? i with
        | none => simp [found] at member
        | some object =>
          simp only [found, Option.map_some, Option.getD_some, List.mem_flatMap] at member
          exact World.holdsNative_iff.mpr (.inr ⟨i, object, found, member⟩)

theorem reapAll {k : Nat} (tended : w.Tended o n) (quiet : Quiet moments)
    (runs : Runs (State.reapAll k) w moments (some (.ok ())) w') :
    Deals o n False w moments w' := by
  induction k generalizing w moments with
  | zero =>
    obtain ⟨rfl, -, rfl⟩ := runs.of_pure
    exact idle tended
  | succ k ih =>
    obtain ⟨rest, rfl, reaped⟩ := runs.of_perform
    have tended' : (Op.reap.apply w).2.Tended o n :=
      tended.dwindles (World.Wanes.reap w).dwindles fun owner =>
        (isDestroyed_reap owner).trans (tended.alive owner)
    cases gone : w.reap with
    | none =>
      rw [show (Op.reap.apply w) = (none, w) by simp [Op.apply, gone]] at reaped
      obtain ⟨rfl, -, rfl⟩ := reaped.of_pure
      exact .inr (.of_same tended (by simp) rfl rfl rfl)
    | some both =>
      obtain ⟨natives, w₁⟩ := both
      have taken : Op.reap.apply w = (some natives, w₁) := by simp [Op.apply, gone]
      rw [taken] at reaped tended'
      obtain ⟨⟨⟩, w₂, first, later, rfl, releasing, going⟩ := reaped.of_bind
      obtain ⟨during, after⟩ := Quiet.append.mp quiet.cons
      have wanes := releasing.wanes (.forM .releaseNative) during
      have deals := forM .releaseNative (fun m {_ _ _} tended quiet runs => release tended runs quiet)
        tended' during releasing
      have onward := going.wanes (.reapAll k) after
      have natives : w₁.native? n = w.native? n := by
        have only := World.OnlyObjects.reap gone
        simp only [World.native?, only.natives]
      have both := deals.append wanes.dwindles onward.dwindles fun spares =>
        ih (spares.tended tended' wanes.dwindles) after going
      exact of_step natives (holdsNative_reap gone) (both.mono (by rw [or_false]))

theorem finalize {natives : List NativeId} (tended : w.Tended o n) (quiet : Quiet moments)
    (runs : Runs (State.finalize natives) w moments (some (.ok ())) w') :
    Deals o n (n ∈ natives) w moments w' := by
  refine forM (fun m => ?_) (fun m {w moments w'} tended quiet runs => ?_) tended quiet runs
  · exact (Action.Disposing.releaseNative m).bind fun _ => .perform trivial fun _ => .reapAll _
  · obtain ⟨⟨⟩, w₁, first, later, rfl, releasing, going⟩ := runs.of_bind
    obtain ⟨rest, rfl, reaping⟩ := going.of_perform
    obtain ⟨during, after⟩ := Quiet.append.mp quiet
    have wanes := releasing.wanes (.releaseNative m) during
    have onward := reaping.wanes (.reapAll _) after.cons
    have reaped (spares : Spares o n (m = n) w first w₁) :
        Deals o n False w₁ (.op (.view (·.objects.next)) w₁ :: rest) w' :=
      of_step rfl (by simp) (reapAll (spares.tended tended wanes.dwindles) after.cons reaping)
    have both := (release tended releasing during).append wanes.dwindles onward.dwindles reaped
    exact both.mono (by rw [or_false])

end Deals

end ScriptBridge
