import ScriptBridge.Proofs.Computed
import ScriptBridge.Proofs.Ends
import ScriptBridge.Proofs.Mirrors
import ScriptBridge.Proofs.Tables
import ScriptBridge.Proofs.Wrappers
import ScriptBridge.State.Basic

/-!
What programs leave that only add to the world: such are the conversions of host values and of lists
for scripts, and the reading of members that do no more than to look at their object.
-/

namespace ScriptBridge

open Script (Cell Datum Table)

/-- A second world still has the cells, native objects and classes of a first one. Only coroutines
may have gone on. -/
structure World.Retains (w w' : World) : Prop where
  isOpen : ∀ s, w'.isOpen s = w.isOpen s
  cell? : ∀ {r c}, w.cell? r = some c → (∀ t, c ≠ .thread t) → w'.cell? r = some c
  native? : ∀ {n native}, w.native? n = some native → w'.native? n = some native
  classOf : ∀ o, w'.classOf o = w.classOf o

namespace World.Retains

variable {w w₁ v w' : World} {r : Ref}

theorem refl (w : World) : w.Retains w :=
  ⟨fun _ => rfl, fun found _ => found, id, fun _ => rfl⟩

theorem trans (first : w.Retains w₁) (second : w₁.Retains w') : w.Retains w' where
  isOpen s := (second.isOpen s).trans (first.isOpen s)
  cell? found plain := second.cell? (first.cell? found plain) plain
  native? found := second.native? (first.native? found)
  classOf o := (second.classOf o).trans (first.classOf o)

theorem of_mirrors (mirrors : w.Mirrors w') : w.Retains w' where
  isOpen := mirrors.isOpen
  cell? := mirrors.cell?
  native? found := (mirrors.native? _).trans found
  classOf o := congrArg (fun w => w.classOf o) mirrors.outside

theorem of_alike (alike : w.Alike w') : w.Retains w' where
  isOpen := alike.isOpen
  cell? found _ := (alike.cell? _).trans found
  native? found := (alike.native? _).trans found
  classOf o := by simp only [World.classOf, World.object?, alike.objects]

/-- What is retained in an operation of the bridge is retained by it. -/
theorem operation {s : StateId} (inside : ((Scope.operation s).enter w).Retains v)
    (held : List Handle) : w.Retains ((Scope.operation s).exit held v) :=
  (of_alike (.enter _ w)).trans (inside.trans (of_alike (.exit ..)))

/-- What is written to a place that was free in a first world takes nothing from there. -/
theorem writeNew (retains : w.Retains v) (new : w.cell? r = none) (cell : Cell) :
    w.Retains (v.write r cell) where
  isOpen s := by simpa [World.write] using retains.isOpen s
  cell? found plain := by
    rw [cell?_write, if_neg, retains.cell? found plain]
    rintro rfl
    cases new.symm.trans found
  native? := retains.native?
  classOf := retains.classOf

theorem newWrapper (w : World) (o : ObjectId) (ownership : Ownership) :
    w.Retains (w.newWrapper o ownership).2 where
  isOpen _ := rfl
  cell? found _ := found
  native? {n native} found := by
    have old : n ≠ w.natives.next := Nat.ne_of_lt (Store.lt_next_of_get? found)
    exact (native?_newNative (w.modifyObject o _) _ n).trans ((if_neg old).trans found)
  classOf i := by
    change (Option.map _ ((w.objects.modify o _).get? i)).getD _ = _
    rw [Store.get?_modify]
    split
    · rw [Option.map_map]
      rfl
    · rfl

theorem cacheWrapper (w : World) (s : StateId) (o : ObjectId) (r : Ref) :
    w.Retains (w.cacheWrapper s o r) where
  isOpen t := by simp [World.cacheWrapper]
  cell? {r c} found _ := by
    obtain ⟨e, engine, there⟩ := Option.bind_eq_some_iff.mp found
    unfold World.cacheWrapper
    simp only [World.cell?, engine?_modifyEngine, engine]
    split <;> exact there
  native? := id
  classOf _ := rfl

end World.Retains

namespace Ends

variable {w v w' : World} {s : StateId} {r : Ref} {content : Table}

/-- A new table has a place that was free. -/
theorem of_newTable (isOpen : w.isOpen s) {result : Except Fault Value}
    (ends : Ends (TableOps.newTable s) w result w') : ∃ r a,
      result = .ok (.handle ⟨.table, r, a⟩) ∧ r.owner = s ∧ w.cell? r = none ∧ w.Retains w' ∧
        w'.cell? r = some (.table {} none) := by
  have entered := World.Alike.enter (.operation s) w
  obtain ⟨w₁, inside, rfl⟩ := Ends.within_iff.mp ends
  have isOpen' : ((Scope.operation s).enter w).isOpen s := by rwa [entered.isOpen]
  obtain ⟨free, placed⟩ := World.Puts.allocate isOpen' (.table {} none)
  obtain ⟨rfl, rfl⟩ := (Ends.straight_iff rfl).mp inside
  refine ⟨_, _, rfl, ?_, ?_, .operation (.of_mirrors (.trans (.allocate ..) (.anchor ..))) _, ?_⟩
  · rfl
  · rwa [← entered.cell?]
  · rw [(World.Alike.exit ..).cell?]
    exact ((World.Alike.anchor ..).cell? _).trans placed.there

/-- An item is written into a table that was not there in a first world. -/
theorem of_set (new : w.cell? r = none) (retains : w.Retains v)
    (found : v.cell? r = some (.table content none)) {i : Int64} {value : Value}
    {result : Except Fault Unit} (ends : Ends (TableOps.set r (.int i) value) v result w') :
    w.Retains w' ∧ ∃ content', w'.cell? r = some (.table content' none) ∧
      ∀ name, value = .text name → result = .ok () →
        content' = content.set (.int i) (.str name) := by
  have entered := World.Alike.enter (.operation r.owner) v
  have left (held : List Handle) (v : World) := World.Alike.exit (.operation r.owner) held v
  have found' := (entered.cell? r).trans found
  have same (held : List Handle) :
      w.Retains ((Scope.operation r.owner).exit held ((Scope.operation r.owner).enter v)) :=
    retains.trans (.operation (.refl _) held)
  obtain ⟨w₁, inside, rfl⟩ := Ends.within_iff.mp ends
  have key : (Value.int i).datum ((Scope.operation r.owner).enter v) r.owner = .ok (.int i) := rfl
  have writes := (Ends.straight_bind_iff (Value.straight_toDatum key)).mp inside
  rw [Ends.toDatum_bind_iff] at writes
  cases converted : value.datum ((Scope.operation r.owner).enter v) r.owner with
  | error e =>
    rw [converted] at writes
    obtain ⟨rfl, rfl⟩ := writes
    exact ⟨same _, content, ((left ..).cell? r).trans found', fun _ _ none => by cases none⟩
  | ok d =>
    rw [converted] at writes
    obtain ⟨given, runs, rfl⟩ := Ends.discard_iff.mp writes
    rcases Ends.runTask_iff.mp runs with ⟨rfl, rfl⟩ | ⟨outcome, task, rfl⟩
    · exact ⟨same _, content, ((left ..).cell? r).trans found', fun _ _ none => by cases none⟩
    · obtain ⟨rfl, rfl⟩ :=
        (Ends.straight_iff (Script.straight_writeMember found' (.int i) rfl (.inl rfl) _)).mp task
      have placed : World.Puts _ r (.table (content.set (.int i) d) none) _ := .write found' rfl
      refine ⟨.trans (retains.trans (.of_alike entered) |>.writeNew new _) (.of_alike (left ..)),
        _, ((left ..).cell? r).trans placed.there, ?_⟩
      rintro name rfl -
      cases converted
      rfl

/-- The items that are written after those that a new table has. -/
theorem of_fill {names : List String} {done : List Datum} {a : AnchorId}
    (fits : ((done.length + names.length : Nat) : Int) ≤ Int64.maxValue.toInt)
    (new : w.cell? r = none) (retains : w.Retains v)
    (found : v.cell? r = some (.table content none)) (lists : content.Lists done)
    (ends : Ends (((names.map Value.text).zipIdx (done.length + 1)).forM fun (item, i) =>
      (Value.handle ⟨.table, r, a⟩).setIndex (.int (.ofNat i)) item) v (.ok ()) w') :
    ∃ content, w'.cell? r = some (.table content none) ∧ content.Lists (done ++ names.map .str) ∧
      w.Retains w' := by
  induction names generalizing done v content with
  | nil =>
    obtain ⟨-, rfl⟩ := Ends.pure_iff.mp ends
    exact ⟨content, found, by simpa using lists, retains⟩
  | cons name rest ih =>
    obtain ⟨_, v₁, first, others⟩ := Ends.of_bind_ok ends
    obtain ⟨e, engine⟩ := World.exists_engine_of_cell? found
    have isOpen : v.isOpen r.owner := Option.isSome_iff_exists.mpr ⟨e, engine⟩
    obtain ⟨retained, content', there, same⟩ := of_set new retains found
      ((Ends.straight_bind_iff (Action.straight_checkOpen (h := ⟨.table, r, a⟩) isOpen)).mp first)
    obtain rfl := same name rfl rfl
    rw [List.length_cons] at fits
    have further : (done ++ [Datum.str name]).length = done.length + 1 := List.length_append
    obtain ⟨content', listed, lists', retained'⟩ := ih (by rw [further]; omega) retained there
      (lists.push (.str name) (by omega)) (by rwa [further])
    exact ⟨content', listed, by simpa using lists', retained'⟩

/-- What a new table lists. -/
theorem of_newSequence {names : List String} (isOpen : w.isOpen s)
    (fits : (names.length : Int) ≤ Int64.maxValue.toInt) {value : Value}
    (ends : Ends (State.newSequence s (names.map .text)) w (.ok value) w') : ∃ r a content,
      value = .handle ⟨.table, r, a⟩ ∧ r.owner = s ∧ w'.cell? r = some (.table content none) ∧
        content.Lists (names.map .str) ∧ w.Retains w' := by
  obtain ⟨table, v, makes, rest⟩ := Ends.of_bind_ok ends
  obtain ⟨r, a, same, own, new, retains, found⟩ := of_newTable isOpen makes
  cases same
  obtain ⟨_, v₁, fills, done⟩ := Ends.of_bind_ok rest
  obtain ⟨same, rfl⟩ := Ends.pure_iff.mp done
  cases same
  obtain ⟨content, listed, lists, retained⟩ := of_fill (by simpa using fits) new retains found
    Table.lists_empty fills
  exact ⟨r, a, content, rfl, own, listed, lists, retained⟩

theorem retains_anchored {kind : HandleKind} {result : Except Fault Value}
    (ends : Ends (Value.anchored kind r) w result w') : w.Retains w' := by
  obtain ⟨-, rfl⟩ := (Ends.straight_iff rfl).mp ends
  exact .of_mirrors (.anchor ..)

theorem retains_wrapNativeId {n : NativeId} {result : Except Fault Value}
    (ends : Ends (wrapNativeId s n) w result w') : w.Retains w' := by
  obtain ⟨w₁, inside, rfl⟩ := Ends.within_iff.mp ends
  exact .operation ((World.Retains.of_mirrors (.allocate ..)).trans
    (retains_anchored (Ends.perform_bind_iff.mp inside))) _

theorem retains_wrapObject {o : ObjectId} {own : Ownership} {result : Except Fault Value}
    (ends : Ends (wrapObject s o own) w result w') : w.Retains w' := by
  obtain ⟨w₁, inside, rfl⟩ := Ends.within_iff.mp ends
  rw [Ends.view_bind_iff] at inside
  refine .operation ?_ _
  split at inside
  · exact retains_anchored inside
  · rw [Ends.perform_bind_iff] at inside
    refine (World.Retains.newWrapper _ o own).trans ?_
    rcases Ends.bind_iff.mp inside with ⟨value, w₂, wraps, caches⟩ | ⟨_, -, wraps⟩
    · refine (retains_wrapNativeId wraps).trans ?_
      split at caches
      · rw [Ends.perform_bind_iff] at caches
        obtain ⟨-, rfl⟩ := Ends.pure_iff.mp caches
        exact .cacheWrapper ..
      · obtain ⟨-, rfl⟩ := Ends.pure_iff.mp caches
        exact .refl _
    · exact retains_wrapNativeId wraps

end Ends

namespace HostValue

mutual

/-- A host value as a value for scripts takes nothing away. -/
theorem retains_toValue {s : StateId} : ∀ (h : HostValue) {w w' : World}
    {result : Except Fault Value}, w.isOpen s → Ends (h.toValue s) w result w' → w.Retains w'
  | .void, _, _, _, _, ends | .bool _, _, _, _, _, ends | .int _, _, _, _, _, ends
  | .double _, _, _, _, _, ends | .text _, _, _, _, _, ends | .object none, _, _, _, _, ends
  | .native none, _, _, _, _, ends | .variant _, _, _, _, _, ends => by
    unfold toValue at ends
    obtain ⟨-, rfl⟩ := Ends.pure_iff.mp ends
    exact .refl _
  | .object (some o), _, _, _, _, ends => by
    unfold toValue at ends
    exact Ends.retains_wrapObject ends
  | .native (some n), _, _, _, _, ends => by
    unfold toValue at ends
    exact Ends.retains_wrapNativeId ends
  | .list items, w, w', result, isOpen, ends => by
    unfold toValue at ends
    rcases Ends.bind_iff.mp ends with ⟨_, w₁, makes, rest⟩ | ⟨_, -, makes⟩
    · obtain ⟨r, a, same, rfl, new, retains, found⟩ := Ends.of_newTable isOpen makes
      cases same
      rcases Ends.bind_iff.mp rest with ⟨_, w₂, fills, done⟩ | ⟨_, -, fills⟩
      · obtain ⟨-, rfl⟩ := Ends.pure_iff.mp done
        exact retains_fillTable items new retains found fills
      · exact retains_fillTable items new retains found fills
    · obtain ⟨_, _, same, -⟩ := Ends.of_newTable isOpen makes
      cases same

theorem retains_fillTable : ∀ (items : List HostValue) {w v w' : World} {r : Ref} {content : Table}
    {position : Nat} {result : Except Fault Unit}, w.cell? r = none → w.Retains v →
    v.cell? r = some (.table content none) → Ends (fillTable r.owner r position items) v result w' →
      w.Retains w'
  | [], _, _, _, _, _, _, _, _, retains, _, ends => by
    unfold fillTable at ends
    obtain ⟨-, rfl⟩ := Ends.pure_iff.mp ends
    exact retains
  | item :: items, w, v, w', r, content, position, result, new, retains, found, ends => by
    unfold fillTable at ends
    obtain ⟨e, engine⟩ := World.exists_engine_of_cell? found
    have isOpen : v.isOpen r.owner := Option.isSome_iff_exists.mpr ⟨e, engine⟩
    rcases Ends.bind_iff.mp ends with ⟨value, v₁, converts, rest⟩ | ⟨_, -, converts⟩
    · have kept := retains_toValue item isOpen converts
      have found₁ := kept.cell? found (by simp)
      rcases Ends.bind_iff.mp rest with ⟨_, v₂, sets, fills⟩ | ⟨_, -, sets⟩
      · obtain ⟨retained, content', found₂, -⟩ := Ends.of_set new (retains.trans kept) found₁ sets
        exact retains_fillTable items new retained found₂ fills
      · exact (Ends.of_set new (retains.trans kept) found₁ sets).1
    · exact retains.trans (retains_toValue item isOpen converts)

end

end HostValue

/-- Whether a behaviour does no more than to look at its object. -/
def Behaviour.looks : Behaviour → Bool
  | .put _ | .putEmit .. | .emit _ | .log | .destroy | .rename | .setParent => false
  | _ => true

variable {w w' : World} {s : StateId} {o : ObjectId}

/-- A behaviour that only looks changes nothing. -/
theorem Behaviour.ends_of_looks {b : Behaviour} (looks : b.looks = true) {signature : String}
    {args : List HostValue} {result : Except Fault HostValue}
    (ends : Ends (b.run o signature args) w result w') : w' = w := by
  unfold Behaviour.run at ends
  rw [Ends.perform_bind_iff] at ends
  cases b with
  | nothing | const | arg | list | multiply | repeatText | self => exact (Ends.pure_iff.mp ends).2
  | fail => exact (Ends.throw_iff.mp ends).2
  | get | objectName | parent | findChild =>
    dsimp only at ends
    rw [Ends.view_bind_iff] at ends
    exact (Ends.pure_iff.mp ends).2
  | put | putEmit | emit | log | destroy | rename | setParent => cases looks

/-- To read a property of an object is to ask the getter of its nearest declaration, unless the object
has been destroyed. -/
theorem Native.of_readMember {name : String} {p : Property}
    (found : (w.classOf o).property? name = some p) {result : Except Fault Value}
    (ends : Ends (Native.readMember s o (.text name)) w result w') :
    Ends (p.read o >>= HostValue.toValue s) w result w' ∨ (∃ e, result = .error e) ∧ w' = w := by
  unfold Native.readMember at ends
  rw [Ends.view_bind_iff] at ends
  rcases Ends.bind_iff.mp ends with ⟨_, w₁, same, ends⟩ | ⟨e, rfl, none⟩
  · obtain ⟨same, rfl⟩ := Ends.ofExcept_iff.mp same
    cases same
    rw [Ends.view_bind_iff] at ends
    rcases Ends.bind_iff.mp ends with ⟨_, w₂, alive, ends⟩ | ⟨e, rfl, dead⟩
    · obtain ⟨-, rfl⟩ := Ends.ofExcept_iff.mp alive
      rw [found] at ends
      exact .inl ends
    · exact .inr ⟨⟨e, rfl⟩, (Ends.ofExcept_iff.mp dead).2⟩
  · exact .inr ⟨⟨e, rfl⟩, (Ends.ofExcept_iff.mp none).2⟩

/-- To read a property with a getter that only looks takes nothing away. -/
theorem Native.retains_readMember {name : String} {p : Property}
    (found : (w.classOf o).property? name = some p) (looks : p.getter.looks = true)
    (isOpen : w.isOpen s) {result : Except Fault Value}
    (ends : Ends (Native.readMember s o (.text name)) w result w') : w.Retains w' := by
  rcases Native.of_readMember found ends with ends | ⟨-, rfl⟩
  · rcases Ends.bind_iff.mp ends with ⟨read, w₁, reads, converts⟩ | ⟨_, -, reads⟩
    · obtain rfl := Behaviour.ends_of_looks looks reads
      exact read.retains_toValue isOpen converts
    · obtain rfl := Behaviour.ends_of_looks looks reads
      exact .refl _
  · exact .refl _

end ScriptBridge
