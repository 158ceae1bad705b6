import ScriptBridge.Proofs.Iteration
import ScriptBridge.Proofs.Overloads
import ScriptBridge.Proofs.Paths

/-!
Host values that go to a state and come back: a host value as a value of an open state converts to
the host value it was.
-/

namespace ScriptBridge

open Script (Cell Datum Table)

/-- Host values that are the same but for the anchors of handles in a list of values. -/
inductive HostValue.Again : HostValue → HostValue → Prop where
  | same (host : HostValue) : Again host host
  | list {values values' : List Value} (each : values'.map Value.bare = values.map Value.bare) :
      Again (.list (values.map .variant)) (.list (values'.map .variant))

section Wrappers

variable {w : World} {s : StateId}

/-- A second world has the host objects of a first one, but that one of them may have got an owner. -/
def World.Claims (w : World) (o : ObjectId) (w' : World) : Prop :=
  w'.objects = w.objects ∨
    w'.objects = w.objects.modify o fun object => { object with owned := true }

/-- A native object that goes to an open state is in a userdata then. -/
theorem runTo_wrapNativeId (isOpen : w.isOpen s) (n : NativeId) (k : Nat) :
    ∃ r a w', (wrapNativeId s n).runTo k w = (.ok (.handle ⟨.userdata, r, a⟩), w') ∧
      w'.cell? r = some (.native n) ∧ w.Retains w' ∧ w'.objects = w.objects := by
  have entered := World.Alike.enter (.operation s) w
  have isOpen' : ((Scope.operation s).enter w).isOpen s := by rwa [entered.isOpen]
  obtain ⟨-, placed⟩ := World.Puts.allocate isOpen' (.native n)
  have inside : (do
      Value.anchored .userdata (← Action.perform (.allocate s (.native n)))).runTo k
        ((Scope.operation s).enter w) = _ := Action.runTo_straight rfl
  refine ⟨_, _, _, Action.runTo_operation_exit inside, ?_,
    .operation (.of_mirrors (.trans (.allocate ..) (.anchor ..))) _, (World.Alike.exit ..).objects⟩
  rw [(World.Alike.exit ..).cell?]
  exact ((World.Alike.anchor ..).cell? _).trans placed.there

theorem World.standsFor_of_wrapperOf? {o : ObjectId} {r : Ref} (found : w.wrapperOf? s o = some r) :
    w.StandsFor r o := by
  obtain ⟨e, -, found⟩ := Option.bind_eq_some_iff.mp found
  obtain ⟨⟨o', r'⟩, -, found⟩ := Option.bind_eq_some_iff.mp found
  dsimp only at found
  split at found
  · rename_i n cell
    split at found
    · rename_i o' owning origin native
      split at found
      · rename_i same
        cases found
        exact ⟨n, owning, origin, cell, same ▸ native⟩
      · cases found
    · cases found
  · cases found

/-- A host object that goes to an open state has a userdata that stands for it then. -/
theorem runTo_wrapObject (isOpen : w.isOpen s) (o : ObjectId) (own : Ownership) (k : Nat) :
    ∃ r a w', (wrapObject s o own).runTo k w = (.ok (.handle ⟨.userdata, r, a⟩), w') ∧
      w'.StandsFor r o ∧ w.Claims o w' := by
  have entered := World.Alike.enter (.operation s) w
  have isOpen' : ((Scope.operation s).enter w).isOpen s := by rwa [entered.isOpen]
  have left {v : World} {r : Ref} {held : List Handle} (stands : v.StandsFor r o) :
      ((Scope.operation s).exit held v).StandsFor r o :=
    (World.Retains.of_alike (.exit ..)).standsFor stands
  have outside (v : World) (held : List Handle) :
      ((Scope.operation s).exit held v).objects = v.objects :=
    (World.Alike.exit ..).objects
  unfold wrapObject
  cases remembered : ((Scope.operation s).enter w).wrapperOf? s o with
  | some r =>
    obtain ⟨a, w₁, anchors, alike⟩ : ∃ a w₁,
        (Value.anchored .userdata r).straight ((Scope.operation s).enter w) =
          some (.handle ⟨.userdata, r, a⟩, w₁) ∧ World.Alike _ w₁ := ⟨_, _, rfl, .anchor _ r⟩
    have stands := World.standsFor_of_wrapperOf? remembered
    refine ⟨r, a, _, Action.runTo_operation_exit (?_ : _ = (_, w₁)),
      left ((World.Retains.of_alike alike).standsFor stands),
      .inl ((outside ..).trans (alike.objects.trans entered.objects))⟩
    rw [Action.runTo_view_bind, remembered]
    exact Action.runTo_straight anchors
  | none =>
    obtain ⟨n, w₁, makes, native, isOpen₁, claimed⟩ : ∃ n w₁,
        (Op.newWrapper o own).apply ((Scope.operation s).enter w) = (n, w₁) ∧
          (∃ owning, w₁.native? n = some (.wrapper o owning own)) ∧ w₁.isOpen s ∧
          w₁.objects = w.objects.modify o fun object => { object with owned := true } :=
      ⟨_, _, rfl, ⟨_, (World.native?_newNative _ _ _).trans (if_pos rfl)⟩, isOpen', rfl⟩
    obtain ⟨r, a, w₂, wraps, cell, retains, objects⟩ := runTo_wrapNativeId isOpen₁ n k
    obtain ⟨owning, native⟩ := native
    have stands : w₂.StandsFor r o := ⟨n, owning, own, cell, retains.native? native⟩
    refine ⟨r, a, _, Action.runTo_operation_exit (?_ : _ = (_, w₂.cacheWrapper s o r)),
      left ((World.Retains.cacheWrapper ..).standsFor stands),
      .inr ((outside ..).trans (objects.trans claimed))⟩
    have made : (Action.perform (.newWrapper o own)).runTo k ((Scope.operation s).enter w) = (.ok n, w₁) :=
      Action.runTo_straight (by rw [Action.straight_perform, makes])
    rw [Action.runTo_view_bind, remembered]
    refine (Action.runTo_bind_ok made).trans ((Action.runTo_bind_ok wraps).trans ?_)
    exact Action.runTo_straight rfl

end Wrappers

namespace HostValue

variable {w : World} {s : StateId}

/-- Values that are put at the positions of a new table. -/
theorem runTo_fillTable {r : Ref} {content : Table} {done : List Datum} {values : List Value}
    (found : w.cell? r = some (.table content none)) (own : r.owner = s) (lists : content.Lists done)
    (belong : ∀ v ∈ values, v.BelongsTo s)
    (fits : ((done.length + values.length : Nat) : Int) ≤ Int64.maxValue.toInt) (n : Nat) :
    ∃ content' data w', (fillTable s r (done.length + 1) (values.map .variant)).runTo (n + 1) w =
        (.ok (), w') ∧ w'.cell? r = some (.table content' none) ∧ content'.Lists (done ++ data) ∧
      data.map Datum.asValue = values.map (some ·.bare) := by
  induction values generalizing w content done with
  | nil => exact ⟨content, [], w, Action.runTo_pure .., found, by simpa using lists, rfl⟩
  | cons v rest ih =>
    rw [List.length_cons] at fits
    obtain ⟨e, engine⟩ := World.exists_engine_of_cell? found
    have isOpen : w.isOpen s := Option.isSome_iff_exists.mpr ⟨e, own ▸ engine⟩
    obtain ⟨d, made⟩ := (belong v (.head _)).datum isOpen
    obtain ⟨w₁, sets, puts⟩ := TableOps.runTo_set found
      (.int (.ofNat (done.length + 1))) rfl (own ▸ made) rfl (.inl rfl) n
    have pushed := lists.push d (by omega)
    obtain ⟨content', data, w', fills, there, all, each⟩ := ih puts.there pushed
      (fun v member => belong v (.tail _ member))
      (by rw [List.length_append, List.length_singleton]; omega)
    refine ⟨content', d :: data, w', ?_, there, by simpa using all,
      congrArg₂ List.cons (Value.asValue_of_datum made) each⟩
    rw [List.length_append, List.length_singleton] at fills
    rw [List.map_cons, fillTable, toValue]
    exact (Action.runTo_bind_ok (Action.runTo_pure ..)).trans ((Action.runTo_bind_ok sets).trans fills)

theorem mem_handlesAll {values : List Value} {h : Handle} (member : Value.handle h ∈ values) :
    h ∈ handlesAll (values.map .variant) := by
  induction values with
  | nil => cases member
  | cons v rest ih =>
    rw [List.map_cons, handlesAll, List.mem_append]
    rcases List.mem_cons.mp member with rfl | member
    · exact .inl (.head _)
    · exact .inr (ih member)

theorem exists_variants {items : List HostValue}
    (each : ∀ item ∈ items, ∃ v, item = .variant v ∧ v ≠ .nil) :
    ∃ values : List Value, items = values.map .variant ∧ ∀ v ∈ values, v ≠ .nil := by
  induction items with
  | nil => exact ⟨[], rfl, fun _ none => by cases none⟩
  | cons item rest ih =>
    obtain ⟨v, rfl, present⟩ := each _ (.head _)
    obtain ⟨values, rfl, others⟩ := ih fun item member => each item (.tail _ member)
    exact ⟨v :: values, rfl, List.forall_mem_cons.mpr ⟨present, others⟩⟩

theorem exists_values {data : List Datum} {hosts : List HostValue}
    (each : List.Forall₂ (fun d host => ∃ v : Value, host = .variant v ∧ d.asValue = some v.bare)
      data hosts) : ∃ values : List Value, hosts = values.map .variant ∧
        data.map Datum.asValue = values.map (some ·.bare) := by
  induction each with
  | nil => exact ⟨[], rfl, rfl⟩
  | cons first _ ih =>
    obtain ⟨v, rfl, shown⟩ := first
    obtain ⟨values, rfl, same⟩ := ih
    exact ⟨v :: values, rfl, congrArg₂ List.cons shown same⟩

/-- A list of values is a new table in the state, and comes back item by item. -/
theorem runTo_list {values : List Value} (isOpen : w.isOpen s)
    (belong : ∀ v ∈ values, v.BelongsTo s) (present : ∀ v ∈ values, v ≠ .nil)
    (fits : (values.length : Int) ≤ Int64.maxValue.toInt) (n : Nat) :
    ∃ v w₁ host w', ((HostValue.list (values.map .variant)).toValue s).runTo (n + 1) w = (.ok v, w₁) ∧
      (HostType.list.fromValue v).runTo (n + 1) w₁ = (.ok host, w') ∧
        Again (.list (values.map .variant)) host := by
  obtain ⟨r, a, w₀, makes, rfl, -, placed⟩ := TableOps.runTo_newTable isOpen (n + 1)
  obtain ⟨content, data, w₁, fills, found, lists, shown⟩ :=
    runTo_fillTable placed.there rfl Script.Table.lists_empty belong (by simpa using fits) n
  have given : ∀ d ∈ data, d ≠ .nil ∧ d.asValue.isSome = true := by
    intro d member
    have shows : d.asValue ∈ values.map (some ·.bare) := shown ▸ List.mem_map_of_mem member
    obtain ⟨v, given, shows⟩ := List.mem_map.mp shows
    refine ⟨?_, by rw [← shows]; rfl⟩
    rintro rfl
    exact present v given (State.eq_nil_of_bare shows.symm)
  obtain ⟨hosts, w', all, each, -⟩ := HostType.runTo_items_listed found lists given (n := n)
  obtain ⟨values', rfl, shown'⟩ := exists_values each
  obtain ⟨e, engine⟩ := World.exists_engine_of_cell? found
  have isOpen₁ : w₁.isOpen r.owner := Option.isSome_iff_exists.mpr ⟨e, engine⟩
  refine ⟨.handle ⟨.table, r, a⟩, w₁, .list (values'.map .variant), w', ?_, ?_, .list ?_⟩
  · unfold toValue
    refine (Action.runTo_bind_ok makes).trans ((Action.runTo_bind_ok fills).trans ?_)
    exact Action.runTo_pure ..
  · simp only [HostType.fromValue, Value.ofKind?, if_true]
    rw [Action.runTo_bind_ok (Action.runTo_straight (Action.straight_checkOpen isOpen₁)),
      Action.runTo_bind_ok all]
    rfl
  · refine List.map_injective_iff.mpr (Option.some_injective _) ?_
    rw [List.map_map, List.map_map]
    exact shown'.symm.trans shown

/-- A host value that goes to an open state and is read there as a value of its type is the host value
it was: the values in it belong to the state, and a list, which is no longer than its positions can be
counted, has values in it that are not nil. -/
theorem fromValue_toValue (isOpen : w.isOpen s) (host : HostValue)
    (own : ∀ h ∈ host.handles, h.state = s)
    (items : ∀ list, host = .list list → (list.length : Int) ≤ Int64.maxValue.toInt ∧
      ∀ item ∈ list, ∃ v, item = .variant v ∧ v ≠ .nil) (n : Nat) :
    ∃ v w₁ host' w', (host.toValue s).runTo (n + 1) w = (.ok v, w₁) ∧
      (host.type.fromValue v).runTo (n + 1) w₁ = (.ok host', w') ∧ host.Again host' := by
  cases host with
  | void | bool | int | double | text | variant =>
    exact ⟨_, w, _, w, Action.runTo_pure .., rfl, .same _⟩
  | object o =>
    cases o with
    | none => exact ⟨.nil, w, _, w, Action.runTo_pure .., rfl, .same _⟩
    | some o =>
      obtain ⟨r, a, w₁, wraps, stands, -⟩ := runTo_wrapObject isOpen o .native (n + 1)
      refine ⟨_, w₁, _, w₁, wraps, ?_, .same _⟩
      have found := World.standsFor_iff (a := a).mp stands
      change (Action.view _ >>= _).runTo _ _ = _
      rw [Action.runTo_view_bind, found]
      rfl
  | native native =>
    cases native with
    | none => exact ⟨.nil, w, _, w, Action.runTo_pure .., rfl, .same _⟩
    | some i =>
      obtain ⟨r, a, w₁, wraps, cell, -⟩ := runTo_wrapNativeId isOpen i (n + 1)
      refine ⟨_, w₁, _, w₁, wraps, ?_, .same _⟩
      have found : w₁.nativeId? (.handle ⟨.userdata, r, a⟩) = some i := by
        simp [World.nativeId?, cell]
      change (Action.view _ >>= _).runTo _ _ = _
      rw [Action.runTo_view_bind, found]
      rfl
  | list list =>
    obtain ⟨fits, values⟩ := items list rfl
    obtain ⟨values, rfl, present⟩ := exists_variants values
    exact runTo_list isOpen (fun v member h same => own h (mem_handlesAll (same ▸ member))) present
      (by simpa using fits) n

/-- A list with a number, a name and a handle on the globals goes to a state and comes back. -/
theorem fromValue_toValue_list :
    let list : HostValue := .list [.variant (.int 7), .variant (.text "name"),
      .variant (.handle ⟨.table, ⟨0, 0⟩, 3⟩)]
    ∃ v w₁ host' w', (list.toValue 0).run State.configured = (.ok v, w₁) ∧
      (list.type.fromValue v).run w₁ = (.ok host', w') ∧ list.Again host' := by
  refine fromValue_toValue rfl _ ?_ ?_ 199
  · simp [handles, handlesAll, Handle.state]
  · rintro _ ⟨⟩
    exact ⟨by decide, by simp⟩

end HostValue

end ScriptBridge
