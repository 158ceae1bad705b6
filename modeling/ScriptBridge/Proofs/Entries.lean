import ScriptBridge.Proofs.Paths
import ScriptBridge.Proofs.Slots

/-!
Entries of tables, taken by the host and written later. An entry knows its key as a value, and a
value keeps apart all keys but strings that are not UTF-8.
-/

namespace ScriptBridge

open Script (Cell Datum Machine Table)

namespace Script.Datum

/-- A datum that is told from all others by its value: anything but a string that is not UTF-8. -/
def IsReadable (d : Datum) : Prop := ∀ b, d = .text b → ∃ s, b = Bytes.ofString s

/-- What becomes of a datum on the way to the host and back. -/
def again : Datum → Datum
  | .text b => .text (Bytes.ofString b.toText)
  | d => d

theorem again_eq_iff (d : Datum) : d.again = d ↔ d.IsReadable := by
  cases d with
  | text b =>
    constructor
    · rintro same _ ⟨⟩
      exact ⟨b.toText, (Datum.text.inj same).symm⟩
    · intro readable
      obtain ⟨s, rfl⟩ := readable b rfl
      simp [again]
  | _ => exact ⟨fun _ _ none => (by cases none), fun _ => rfl⟩

theorem toKey_again_ne {d : Datum} (unreadable : ¬ d.IsReadable) : d.again.toKey ≠ d.toKey := by
  cases d with
  | text b => exact fun same => unreadable ((again_eq_iff _).mp same)
  | _ => exact absurd ((again_eq_iff _).mp rfl) unreadable

theorem isBadKey_again (d : Datum) : Machine.isBadKey d.again = Machine.isBadKey d := by
  cases d <;> rfl

end Script.Datum

namespace Value

variable {w : World} {s : StateId} {v : Value} {d : Datum}

/-- A value that shows a datum of an open state becomes that datum again. -/
theorem datum_of_asValue (isOpen : w.isOpen s) (own : Owned s d.refs)
    (shown : d.asValue = some v.bare) : v.datum w s = .ok d.again := by
  cases d with
  | table r | function r | thread r | userdata r =>
    obtain rfl : r.owner = s := own r (by simp)
    cases v with
    | handle h =>
      obtain ⟨kind, target, a⟩ := h
      cases shown
      simp [Value.datum, Handle.state, isOpen, Handle.datum, Datum.again]
    | _ => cases shown
  | failure => cases shown
  | _ =>
    cases v <;> cases shown
    rfl

theorem asValue_of_ofDatum {w' : World} (ends : Ends (ofDatum d) w (.ok v) w') :
    d.asValue = some v.bare := by
  cases d with
  | table | function | thread | userdata =>
    obtain ⟨same, -⟩ := (Ends.straight_iff rfl).mp ends
    cases same
    rfl
  | failure => cases (Ends.throw_iff.mp ends).1
  | _ =>
    cases (Ends.pure_iff.mp ends).1
    rfl

/-- A snapshot has one entry for each key of the table, in the order of keys. -/
theorem forall₂_entries {h : Handle} {entries : List Entry} {w' : World}
    (taken : Ends (Value.handle h).entries w (.ok entries) w') :
    h.kind = .table ∧ List.Forall₂ (fun (entry : Datum × Datum) e => e.table = .handle h ∧
      entry.1.asValue = some e.key.bare ∧ entry.2.asValue = some e.value.bare)
        (w.tableAt h.target).live entries := by
  unfold Value.entries at taken
  cases table : (Value.handle h).ofKind? .table with
  | none =>
    rw [table] at taken
    cases (Ends.throw_iff.mp taken).1
  | some h' =>
    obtain ⟨same, kind⟩ := ofKind?_eq_some_iff.mp table
    cases same
    refine ⟨kind, ?_⟩
    rw [table] at taken
    obtain ⟨_, w₁, checked, reads⟩ := Ends.of_bind_ok taken
    obtain ⟨-, rfl⟩ := Ends.ofExcept_iff.mp (Ends.view_bind_iff.mp checked)
    obtain ⟨w₂, inside, -⟩ := Ends.within_iff.mp reads
    rw [Ends.view_bind_iff, (World.Alike.enter ..).tableAt] at inside
    refine Ends.forall₂_of_mapM (fun (k, d) v e v' one => ?_) inside
    obtain ⟨key, v₁, shows, one⟩ := Ends.of_bind_ok one
    obtain ⟨value, v₂, shows', done⟩ := Ends.of_bind_ok one
    cases (Ends.pure_iff.mp done).1
    exact ⟨rfl, asValue_of_ofDatum shows, asValue_of_ofDatum shows'⟩

theorem shown_of_mem_entries {h : Handle} {entries : List Entry} {w' : World}
    (taken : Ends (Value.handle h).entries w (.ok entries) w') {e : Entry} (member : e ∈ entries) :
    h.kind = .table ∧ e.table = .handle h ∧ ∃ k d, (k, d) ∈ (w.tableAt h.target).live ∧
      k.asValue = some e.key.bare ∧ d.asValue = some e.value.bare := by
  obtain ⟨kind, each⟩ := forall₂_entries taken
  obtain ⟨length, each⟩ := List.forall₂_iff_get.mp each
  obtain ⟨i, small, rfl⟩ := List.getElem_of_mem member
  have inside : i < (w.tableAt h.target).live.length := length ▸ small
  obtain ⟨table, shown⟩ := each i inside small
  exact ⟨kind, table, _, _, List.getElem_mem inside, shown⟩

end Value

/-- To write a value through an entry is to put a datum under a key of its table, past metamethods,
and to leave all other cells as they are. -/
def Entry.Stores (e : Entry) (v : Value) (n : Nat) (w : World) (r : Ref) (content : Table)
    (metatable : Option Ref) (k d : Datum) : Prop :=
  ∃ w', (e.set v).runTo (n + 1) w = (.ok { e with value := v }, w') ∧
    w.Puts r (.table (content.set k d) metatable) w'

/-- What is written through an entry goes to the key that its value stands for. -/
theorem Entry.stores {w : World} {h : Handle} {e : Entry} {k : Datum} {content : Table}
    {metatable : Option Ref} (kind : h.kind = .table) (table : e.table = .handle h)
    (shown : k.asValue = some e.key.bare) (own : Owned h.state k.refs)
    (keyed : Machine.isBadKey k = none) (found : w.cell? h.target = some (.table content metatable))
    (taken : metatable = none ∨ content.get k.again ≠ .nil) {v : Value} {d : Datum}
    (made : v.datum w h.state = .ok d) (n : Nat) :
    e.Stores v n w h.target content metatable k.again d := by
  obtain ⟨engine, there⟩ := World.exists_engine_of_cell? found
  have isOpen : w.isOpen h.state := Option.isSome_iff_exists.mpr ⟨engine, there⟩
  obtain ⟨w', sets, puts⟩ := TableOps.runTo_set found _ (Value.datum_of_asValue isOpen own shown) made
    ((Datum.isBadKey_again k).trans keyed) taken n
  refine ⟨w', ?_, puts⟩
  unfold Entry.set
  refine (Action.runTo_bind_ok (?_ : _ = (Except.ok (), w'))).trans (Action.runTo_pure ..)
  simp only [table, Value.setIndex, kind]
  rw [Action.runTo_bind_ok (Action.runTo_straight (Action.straight_checkOpen isOpen))]
  exact sets

/-- Writing a value under a key that is there changes the value there, and neither adds nor removes a
key. -/
theorem Script.Table.get_set_eq_nil_iff {t : Table} {k d : Datum} (present : t.get k ≠ .nil)
    (given : d ≠ .nil) (k' : Datum) : (t.set k d).get k' = .nil ↔ t.get k' = .nil := by
  rw [get_set]
  split
  · rename_i same
    have there : t.get k' = t.get k := by rw [get, get, same]
    simp [there, given, present]
  · rfl

/-- To write a value through an entry replaces what is under a key of its table and does nothing else:
an assignment of the value is finished at once, without a metamethod. -/
structure Entry.Replaces (e : Entry) (v : Value) (w : World) (r : Ref) (content : Table)
    (metatable : Option Ref) (k d : Datum) : Prop where
  stores : ∀ n, e.Stores v n w r content metatable k d
  there : ∀ k', (content.set k d).get k' = if k'.toKey = k.toKey then d else content.get k'
  keys : ∀ k', (content.set k d).get k' = .nil ↔ content.get k' = .nil
  atOnce : ∀ (m : Machine) name site, (m.assign (.table r) k d name site).straight w =
    some (m.give [], w.write r (.table (content.set k d) metatable))

/-- To write a value through an entry puts it under another key, and what is under the key of the entry
stays. -/
structure Entry.Misses (e : Entry) (v : Value) (w : World) (r : Ref) (content : Table)
    (metatable : Option Ref) (k d : Datum) : Prop where
  stores : ∀ n, e.Stores v n w r content metatable k.again d
  there : (content.set k.again d).get k.again = d
  stays : (content.set k.again d).get k = content.get k

/-- An entry of a snapshot shows a key of the table. While that key is there, and its value tells it
from all others, to write a value that is not nil through the entry replaces what is there. A key that
is a string and not UTF-8 is taken for another one. -/
theorem Entry.set_law {w w₁ : World} {h : Handle} {entries : List Entry} (isolated : w.Isolated)
    (keyed : ∀ entry ∈ (w.tableAt h.target).live, Machine.isBadKey entry.1 = none)
    (taken : Ends (Value.handle h).entries w (.ok entries) w₁) {e : Entry} (member : e ∈ entries) :
    ∃ k d, (k, d) ∈ (w.tableAt h.target).live ∧ k.asValue = some e.key.bare ∧
      d.asValue = some e.value.bare ∧
      ∀ {w' : World} {content : Table} {metatable : Option Ref},
        w'.cell? h.target = some (.table content metatable) → content.get k ≠ .nil →
        ∀ {v : Value}, v.BelongsTo h.state → v ≠ .nil → ∃ d', d'.asValue = some v.bare ∧
          (k.IsReadable → e.Replaces v w' h.target content metatable k d') ∧
          (¬ k.IsReadable → metatable = none ∨ content.get k.again ≠ .nil →
            e.Misses v w' h.target content metatable k d') := by
  obtain ⟨kind, table, k, d, live, shown, shown'⟩ := Value.shown_of_mem_entries taken member
  have own : Owned h.state k.refs := by
    refine (isolated.tableAt_owned h.target).of_subset fun r refs => ?_
    exact List.mem_flatMap.mpr ⟨_, (List.mem_filter.mp live).1, List.mem_append.mpr (.inl refs)⟩
  refine ⟨k, d, live, shown, shown', fun {w' content metatable} found present v belongs given => ?_⟩
  obtain ⟨engine, there⟩ := World.exists_engine_of_cell? found
  obtain ⟨d', made⟩ := belongs.datum (Option.isSome_iff_exists.mpr ⟨engine, there⟩)
  have shows := Value.asValue_of_datum made
  have something : d' ≠ .nil := by
    rintro rfl
    exact given (State.eq_nil_of_bare shows)
  have writes (taken : metatable = none ∨ content.get k.again ≠ .nil) (n : Nat) :=
    Entry.stores kind table shown own (keyed _ live) found taken made n
  refine ⟨d', shows, fun readable => ?_, fun unreadable taken => ?_⟩
  · rw [(Datum.again_eq_iff k).mpr readable] at writes
    exact ⟨writes (.inr present), Table.get_set content k d', Table.get_set_eq_nil_iff present something,
      fun m name site => m.straight_assign_taken found (keyed _ live) (.inr present) d' name site⟩
  · refine ⟨writes taken, Table.get_set_same .., ?_⟩
    rw [Table.get_set, if_neg (Datum.toKey_again_ne unreadable).symm]

/-- A world with a table that has one key that the host can read and one that it cannot. -/
def illegible : World :=
  ((({} : World).openEngine {}).2.allocate 0
    (.table ((Table.set {} (.int 1) (.int 5)).set (.text [0xff]) (.int 2)) none)).2

theorem illegible.isolated : illegible.Isolated := by
  have filled : Owned 0 (Cell.table ((Table.set {} (.int 1) (.int 5)).set (.text [0xff]) (.int 2))
      none).refs := by
    have first : Owned 0 (Table.set {} (.int 1) (.int 5)).refs :=
      Table.set_owned (by simp [Table.refs]) (by simp) (by simp)
    have both : Owned 0 ((Table.set {} (.int 1) (.int 5)).set (.text [0xff]) (.int 2)).refs :=
      Table.set_owned first (by simp) (by simp)
    simpa [Cell.refs] using both
  exact (World.isolated_openEngine World.isolated_empty {}).modifyEngine fun e _ own => own.add filled

theorem illegible.unreadable : ¬ (Datum.text [0xff]).IsReadable := by
  rw [← Datum.again_eq_iff]
  decide +kernel

/-- The first entry is overwritten; what is written through the second one goes to the key U+FFFD. -/
theorem Entry.set_law_illegible :
    ∃ first second w₁, (Value.handle ⟨.table, ⟨0, 2⟩, 0⟩).entries.run illegible =
        (.ok [first, second], w₁) ∧
      (∃ w', (first.set (.int 7)).run illegible = (.ok { first with value := .int 7 }, w') ∧
        (w'.tableAt ⟨0, 2⟩).get (.int 1) = .int 7) ∧
      ∃ w', (second.set (.int 7)).run illegible = (.ok { second with value := .int 7 }, w') ∧
        (w'.tableAt ⟨0, 2⟩).get (.str "\ufffd") = .int 7 ∧
        (w'.tableAt ⟨0, 2⟩).get (.text [0xff]) = .int 2 := by
  obtain ⟨first, second, w₁, runs, shows, shows'⟩ : ∃ first second w₁,
      (Value.handle ⟨.table, ⟨0, 2⟩, 0⟩).entries.run illegible = (.ok [first, second], w₁) ∧
        first.key = .int 1 ∧ second.key = .text "\ufffd" := ⟨_, _, _, rfl, rfl, rfl⟩
  have keyed : ∀ entry ∈ (illegible.tableAt ⟨0, 2⟩).live, Machine.isBadKey entry.1 = none := by decide
  have taken := Ends.of_run_ok (congrArg Prod.fst runs)
  have value : (Value.int 7).BelongsTo 0 := fun _ none => by cases none
  have found : illegible.cell? ⟨0, 2⟩ = some (.table
    ((Table.set {} (.int 1) (.int 5)).set (.text [0xff]) (.int 2)) none) := rfl
  have seven {d : Datum} (shown : d.asValue = some (Value.int 7).bare) : d = .int 7 := by
    cases d <;> cases shown
    rfl
  have both {k d : Datum} (live : (k, d) ∈ (illegible.tableAt ⟨0, 2⟩).live) :
      k = .int 1 ∨ k = .text [0xff] := by
    have listed : (k, d) ∈ [(Datum.int 1, Datum.int 5), (.text [0xff], .int 2)] := live
    grind
  refine ⟨first, second, w₁, runs, ?_, ?_⟩
  · obtain ⟨k, d, live, shown, -, law⟩ :=
      Entry.set_law illegible.isolated keyed taken (.head _ : first ∈ [first, second])
    rcases both live with rfl | rfl
    · obtain ⟨d', same, replaces, -⟩ := law found (by decide) value (by simp)
      have replaced := replaces fun _ none => by cases none
      obtain ⟨w', sets, puts⟩ := replaced.stores 199
      refine ⟨w', sets, ?_⟩
      rw [Script.tableAt_eq puts.there, replaced.there, if_pos rfl, seven same]
    · rw [shows] at shown
      cases shown
  · obtain ⟨k, d, live, shown, -, law⟩ :=
      Entry.set_law illegible.isolated keyed taken (.tail _ (.head _) : second ∈ [first, second])
    rcases both live with rfl | rfl
    · rw [shows'] at shown
      cases shown
    · obtain ⟨d', same, -, misses⟩ := law found (by decide) value (by simp)
      obtain ⟨stores, there, stays⟩ := misses illegible.unreadable (.inl rfl)
      obtain ⟨w', sets, puts⟩ := stores 199
      refine ⟨w', sets, ?_, ?_⟩
      · rw [Script.tableAt_eq puts.there]
        exact there.trans (seven same)
      · rw [Script.tableAt_eq puts.there, stays]
        rfl

end ScriptBridge
