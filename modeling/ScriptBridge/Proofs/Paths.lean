import ScriptBridge.Proofs.Apart
import ScriptBridge.Proofs.Computed
import ScriptBridge.Proofs.Signatures
import ScriptBridge.Proofs.Tables

/-!
Dotted paths through plain tables: what a path leads to, what reading it gives, and what writing it
changes.
-/

namespace ScriptBridge

open Script (Cell Datum Table)

namespace World

/-- What a datum has under a name, past metamethods. -/
def member (w : World) (d : Datum) (name : String) : Datum :=
  match d with
  | .table r => (w.tableAt r).get (.str name)
  | _ => .nil

/-- What a path leads to from a datum. -/
def resolve (w : World) (d : Datum) (names : List String) : Datum := names.foldl w.member d

variable {w w' : World}

@[simp] theorem resolve_nil (d : Datum) : w.resolve d [] = d := rfl

@[simp] theorem resolve_cons (d : Datum) (name : String) (rest : List String) :
    w.resolve d (name :: rest) = w.resolve (w.member d name) rest := rfl

theorem resolve_absent (names : List String) : w.resolve .nil names = .nil := by
  induction names with
  | nil => rfl
  | cons name rest ih => exact ih

theorem SameScene.member (same : w.SameScene w') : w'.member = w.member := by
  funext d name
  cases d with
  | table r => simp only [World.member, same.tableAt]
  | _ => rfl

theorem SameScene.resolve (same : w.SameScene w') : w'.resolve = w.resolve := by
  funext d names
  simp only [World.resolve, same.member]

end World

/-- What cannot be gone through on a path that is written: anything but nil and tables. -/
def Script.Datum.Blocks (d : Datum) : Prop := d ≠ .nil ∧ ∀ r, d ≠ .table r

namespace World

/-- A path from a table meets no userdata, and the tables that it meets have no metatables and are all
different. -/
structure Unhindered (w : World) (r : Ref) (names : List String) : Prop where
  tables : ∀ k, k < names.length → ∀ r', w.resolve (.table r) (names.take k) = .table r' →
    ∃ content, w.cell? r' = some (.table content none)
  noUserdata : ∀ k, k < names.length →
    (w.resolve (.table r) (names.take k)).typeName ≠ "userdata"
  distinct : ∀ i j, i < j → j < names.length → ∀ r',
    w.resolve (.table r) (names.take i) = .table r' →
      w.resolve (.table r) (names.take j) ≠ .table r'

/-- The tables on an unhindered path are tables of a state. -/
structure Clear (w : World) (s : StateId) (r : Ref) (names : List String) : Prop
    extends w.Unhindered r names where
  own : ∀ k, k < names.length → ∀ r', w.resolve (.table r) (names.take k) = .table r' → r'.owner = s

/-- A path goes through tables without metatables up to its last name. -/
def Passes (w : World) (r : Ref) (names : List String) : Prop :=
  ∀ k, k < names.length → ∃ r' content,
    w.resolve (.table r) (names.take k) = .table r' ∧ w.cell? r' = some (.table content none)

/-- A datum has been stored at the end of a path from a table. -/
structure Stored (w w' : World) (r : Ref) (names : List String) (d : Datum) : Prop where
  /-- One slot of the tables that were there is different: the end of the path, or the slot that held
  the first table that was missing. -/
  slot : ∃ k r' name content content', names[k]? = some name ∧
    w.resolve (.table r) (names.take k) = .table r' ∧
    (k + 1 < names.length → w.member (.table r') name = .nil) ∧
    w.cell? r' = some (.table content none) ∧ w'.cell? r' = some (.table content' none) ∧
    (∀ key, key.toKey ≠ .str name → content'.get key = content.get key) ∧
    ∀ r'', r'' ≠ r' → w.cell? r'' ≠ none → w'.cell? r'' = w.cell? r''
  /-- What is new are tables on the path, each with nothing in it but its entry on the path. -/
  fresh : ∀ r', w.cell? r' = none → ∀ cell, w'.cell? r' = some cell →
    ∃ k name content, names[k]? = some name ∧
      w'.resolve (.table r) (names.take k) = .table r' ∧ cell = .table content none ∧
      ∀ key, key.toKey ≠ .str name → content.get key = .nil
  passes : w'.Passes r names
  reached : w'.resolve (.table r) names = d

variable {w w₁ w' : World} {s : StateId} {r r₁ : Ref} {name : String} {rest : List String}
  {content : Table} {d : Datum}

theorem member_table (found : w.cell? r = some (.table content metatable)) (name : String) :
    w.member (.table r) name = content.get (.str name) := by
  simp only [member, Script.tableAt_eq found]

theorem Clear.congr {names : List String} (clear : w.Clear s r names) (same : w.SameScene w') :
    w'.Clear s r names := by
  refine ⟨⟨?_, ?_, ?_⟩, ?_⟩
  · rw [same.resolve, same.cells]
    exact clear.tables
  · rw [same.resolve]
    exact clear.noUserdata
  · rw [same.resolve]
    exact clear.distinct
  · rw [same.resolve]
    exact clear.own

/-- The rest of a path whose first name leads to a table. -/
theorem Clear.tail (clear : w.Clear s r (name :: rest)) (leads : w.member (.table r) name = .table r₁) :
    w.Clear s r₁ rest where
  tables k small := by
    have later := clear.tables (k + 1) (Nat.succ_lt_succ small)
    rwa [List.take_succ_cons, resolve_cons, leads] at later
  noUserdata k small := by
    have later := clear.noUserdata (k + 1) (Nat.succ_lt_succ small)
    rwa [List.take_succ_cons, resolve_cons, leads] at later
  distinct i j less small := by
    have later := clear.distinct (i + 1) (j + 1) (Nat.succ_lt_succ less) (Nat.succ_lt_succ small)
    rwa [List.take_succ_cons, List.take_succ_cons, resolve_cons, resolve_cons, leads] at later
  own k small := by
    have later := clear.own (k + 1) (Nat.succ_lt_succ small)
    rwa [List.take_succ_cons, resolve_cons, leads] at later

/-- What a path leads to within a state is a thing of that state. -/
theorem Isolated.resolve_owned (isolated : w.Isolated) {d : Datum} (own : Owned s d.refs)
    (names : List String) : Owned s (w.resolve d names).refs := by
  induction names generalizing d with
  | nil => exact own
  | cons name rest ih =>
    refine ih ?_
    cases d with
    | table r' =>
      have ownRef : r'.owner = s := own r' (by simp)
      exact ownRef ▸ Script.Table.get_owned (isolated.tableAt_owned r') (.str name)
    | _ => exact fun _ member => by cases member

theorem Unhindered.clear {names : List String} (unhindered : w.Unhindered r names)
    (isolated : w.Isolated) : w.Clear r.owner r names where
  toUnhindered := unhindered
  own k _ r' leads := by
    have owned := isolated.resolve_owned (d := .table r) (s := r.owner) (by simp)
      (names.take k)
    rw [leads] at owned
    exact owned r' (by simp)

/-- Behind an empty table there is nothing. -/
theorem resolve_empty (found : w.cell? r = some (.table {} none)) {names : List String}
    (nonempty : names ≠ []) : w.resolve (.table r) names = .nil := by
  obtain ⟨name, rest, rfl⟩ := List.exists_cons_of_ne_nil nonempty
  rw [resolve_cons, member_table found]
  exact resolve_absent rest

theorem take_ne_nil {names : List String} {k : Nat} (positive : 0 < k) (small : k ≤ names.length) :
    names.take k ≠ [] := by
  simp only [ne_eq, List.take_eq_nil_iff, not_or]
  exact ⟨by omega, fun none => by simp [none] at small; omega⟩

theorem Clear.of_empty (found : w.cell? r = some (.table {} none)) (own : r.owner = s)
    (names : List String) : w.Clear s r names where
  tables k small r' leads := by
    cases k with
    | zero =>
      cases leads
      exact ⟨_, found⟩
    | succ k =>
      rw [resolve_empty found (take_ne_nil (Nat.succ_pos k) small.le)] at leads
      cases leads
  noUserdata k small := by
    cases k with
    | zero => simp [Datum.typeName]
    | succ k =>
      rw [resolve_empty found (take_ne_nil (Nat.succ_pos k) small.le)]
      simp [Datum.typeName]
  distinct i j less small r' _ := by
    rw [resolve_empty found (take_ne_nil (Nat.zero_lt_of_lt less) small.le)]
    simp
  own k small r' leads := by
    cases k with
    | zero =>
      cases leads
      exact own
    | succ k =>
      rw [resolve_empty found (take_ne_nil (Nat.succ_pos k) small.le)] at leads
      cases leads

/-- A table that was missing behind another one has been made, at a place that was free, and has been
attached. -/
structure Attaches (w : World) (r : Ref) (content : Table) (name : String) (r₁ : Ref) (w' : World) :
    Prop where
  found : w.cell? r = some (.table content none)
  missing : w.member (.table r) name = .nil
  free : w.cell? r₁ = none
  empty : w'.cell? r₁ = some (.table {} none)
  attached : w'.cell? r = some (.table (content.set (.str name) (.table r₁)) none)
  others : ∀ x, x ≠ r → x ≠ r₁ → w'.cell? x = w.cell? x
  stage : w.SameStage w'

namespace Attaches

variable {w₂ : World} (attaches : w.Attaches r content name r₁ w₂)
include attaches

theorem before {w₀ : World} (scene : w₀.SameScene w) : w₀.Attaches r content name r₁ w₂ where
  found := by rw [← scene.cell?, attaches.found]
  missing := by rw [← scene.member, attaches.missing]
  free := by rw [← scene.cell?, attaches.free]
  empty := attaches.empty
  attached := attaches.attached
  others x old new := (attaches.others x old new).trans (scene.cell? x)
  stage := scene.stage.trans attaches.stage

/-- A path either ends at the new table, or leads to nothing. -/
theorem resolve_take {names : List String} {k : Nat} (small : k ≤ names.length) :
    k = 0 ∨ w₂.resolve (.table r₁) (names.take k) = .nil :=
  k.eq_zero_or_pos.imp_right fun positive =>
    resolve_empty attaches.empty (take_ne_nil positive small)

theorem other_of_absent {x : Ref} (absent : w.cell? x = none) : x ≠ r := by
  rintro rfl
  cases absent.symm.trans attaches.found

theorem other_of_present {x : Ref} (present : w.cell? x ≠ none) : x ≠ r₁ := by
  rintro rfl
  exact present attaches.free

section Later

-- What comes later changes nothing that is there but the new table.
variable (others : ∀ x, x ≠ r₁ → w₂.cell? x ≠ none → w'.cell? x = w₂.cell? x)
include others

theorem kept : w'.cell? r = some (.table (content.set (.str name) (.table r₁)) none) := by
  have apart : r ≠ r₁ := attaches.other_of_present (by simp [attaches.found])
  rw [others r apart (by simp [attaches.attached]), attaches.attached]

theorem leads : w'.member (.table r) name = .table r₁ := by
  rw [member_table (attaches.kept others), Script.Table.get_set_same]

theorem elsewhere {x : Ref} (old : x ≠ r) (present : w.cell? x ≠ none) :
    w'.cell? x = w.cell? x := by
  have new := attaches.other_of_present present
  have same := attaches.others x old new
  rw [others x new (by rwa [same]), same]

end Later

end Attaches

/-- A first name that leads to a table, and a path that goes on from there. -/
theorem Passes.cons (found : w.cell? r = some (.table content none))
    (leads : w.member (.table r) name = .table r₁) (rest : w.Passes r₁ names) :
    w.Passes r (name :: names) := by
  intro k small
  cases k with
  | zero => exact ⟨r, content, rfl, found⟩
  | succ k =>
    rw [List.take_succ_cons, resolve_cons, leads]
    exact rest k (Nat.lt_of_succ_lt_succ small)

namespace Stored

theorem of_scene {names : List String} (same : w.SameScene w₁) (stored : w₁.Stored w' r names d) :
    w.Stored w' r names d where
  slot := by
    rw [← same.resolve, ← same.member, ← same.cells]
    exact stored.slot
  fresh := by
    rw [← same.cells]
    exact stored.fresh
  passes := stored.passes
  reached := stored.reached

theorem after {names : List String} (stored : w.Stored w₁ r names d) (same : w₁.SameScene w') :
    w.Stored w' r names d where
  slot := by
    rw [same.cells]
    exact stored.slot
  fresh := by
    rw [same.resolve, same.cells]
    exact stored.fresh
  passes := by
    intro k small
    rw [same.resolve, same.cells]
    exact stored.passes k small
  reached := by
    rw [same.resolve]
    exact stored.reached

/-- The last name of a path is written into the table that the path has led to. -/
theorem last (found : w.cell? r = some (.table content none))
    (puts : w.Puts r (.table (content.set (.str name) d) none) w') : w.Stored w' r [name] d where
  slot := by
    refine ⟨0, r, name, content, _, rfl, rfl, by simp, found, puts.there, fun key other => ?_,
      fun r' other _ => puts.others r' other⟩
    exact (Script.Table.get_set ..).trans (if_neg other)
  fresh r' absent cell present := by
    have other : r' ≠ r := by
      rintro rfl
      rw [absent] at found
      cases found
    rw [puts.others r' other, absent] at present
    cases present
  passes k small := by
    obtain rfl : k = 0 := by simpa using small
    exact ⟨r, _, rfl, puts.there⟩
  reached := by
    rw [resolve_cons, member_table puts.there, Script.Table.get_set_same, resolve_nil]

/-- A path goes on behind a table that is there. -/
theorem through (clear : w.Clear s r (name :: rest)) (leads : w.member (.table r) name = .table r₁)
    (stored : w.Stored w' r₁ rest d) : w.Stored w' r (name :: rest) d := by
  obtain ⟨k, r', last, content, content', named, resolves, missing, found, there, same, others⟩ :=
    stored.slot
  have small : k < rest.length := by
    obtain ⟨small, -⟩ := List.getElem?_eq_some_iff.mp named
    exact small
  have resolves' : w.resolve (.table r) ((name :: rest).take (k + 1)) = .table r' := by
    rw [List.take_succ_cons, resolve_cons, leads]
    exact resolves
  obtain ⟨start, foundStart⟩ := clear.tables 0 (Nat.succ_pos _) r rfl
  have apart : r ≠ r' := by
    rintro rfl
    exact clear.distinct 0 (k + 1) (Nat.succ_pos k) (Nat.succ_lt_succ small) r rfl resolves'
  have kept : w'.cell? r = some (.table start none) := by
    rw [others r apart (by simp [foundStart]), foundStart]
  have leads' : w'.member (.table r) name = .table r₁ := by
    rw [member_table kept, ← member_table foundStart, leads]
  refine ⟨⟨k + 1, r', last, content, content', named, resolves', fun more => ?_, found, there, same,
    others⟩, fun x absent cell present => ?_, stored.passes.cons kept leads', ?_⟩
  · exact missing (Nat.lt_of_succ_lt_succ more)
  · obtain ⟨k, name', content, named, resolves, shape⟩ := stored.fresh x absent cell present
    refine ⟨k + 1, name', content, named, ?_, shape⟩
    rw [List.take_succ_cons, resolve_cons, leads']
    exact resolves
  · rw [resolve_cons, leads']
    exact stored.reached

/-- A table that was missing has been made and attached, and the path goes on behind it. -/
theorem made {w₂ : World} (attaches : w.Attaches r content name r₁ w₂)
    (stored : w₂.Stored w' r₁ rest d) : w.Stored w' r (name :: rest) d := by
  obtain ⟨k, r', last, content₁, content', named, resolves, -, foundLast, there, same, others⟩ :=
    stored.slot
  -- Only the new table itself can be what the rest of the path changes.
  have small : k ≤ rest.length := (List.getElem?_eq_some_iff.mp named).1.le
  obtain rfl | absent := attaches.resolve_take small
  case inr =>
    rw [absent] at resolves
    cases resolves
  cases resolves
  cases attaches.empty.symm.trans foundLast
  have leads := attaches.leads others
  refine ⟨⟨0, r, name, content, _, rfl, rfl, fun _ => attaches.missing, attaches.found,
    attaches.kept others, fun _ other => (Script.Table.get_set ..).trans (if_neg other),
    fun _ => attaches.elsewhere others⟩,
    fun x absent cell present => ?_, stored.passes.cons (attaches.kept others) leads, ?_⟩
  · by_cases new : x = r₁
    · subst new
      cases there.symm.trans present
      exact ⟨1, last, content', named, by simpa using leads, rfl, fun key other => same key other⟩
    · have absent₂ := (attaches.others x (attaches.other_of_absent absent) new).trans absent
      obtain ⟨k, name', content, named, resolves, shape⟩ := stored.fresh x absent₂ cell present
      refine ⟨k + 1, name', content, named, ?_, shape⟩
      rw [List.take_succ_cons, resolve_cons, leads]
      exact resolves
  · rw [resolve_cons, leads]
    exact stored.reached

end Stored

end World

namespace TableOps

/-- A table that takes a value itself has it under the key then, and nothing else is changed. -/
theorem runTo_set {w : World} {r : Ref} {content : Table} {metatable : Option Ref}
    (found : w.cell? r = some (.table content metatable)) (key : Value) {value : Value} {k d : Datum}
    (madeKey : key.datum w r.owner = .ok k) (made : value.datum w r.owner = .ok d)
    (keyed : Script.Machine.isBadKey k = none) (taken : metatable = none ∨ content.get k ≠ .nil)
    (n : Nat) : ∃ w', (set r key value).runTo (n + 1) w = (.ok (), w') ∧
      w.Puts r (.table (content.set k d) metatable) w' := by
  have entered := World.SameScene.enter r.owner w
  rw [← entered.cell?] at found
  rw [← Value.datum_congr entered.stage.isOpen] at madeKey made
  have inside : (do
      let key ← key.toDatum r.owner
      let value ← value.toDatum r.owner
      discard <| runTask r.owner (.assign (.table r) key value)).runTo (n + 1)
        ((Scope.operation r.owner).enter w) =
      (.ok (), ((Scope.operation r.owner).enter w).write r (.table (content.set k d) metatable)) := by
    rw [Action.runTo_bind_ok (Action.runTo_straight (Value.straight_toDatum madeKey)),
      Action.runTo_bind_ok (Action.runTo_straight (Value.straight_toDatum made))]
    exact (Action.runTo_bind_ok (Action.runTo_runTask
      (Script.straight_writeMember found k keyed taken d))).trans (Action.runTo_pure _ _ _)
  obtain ⟨w', ends, left⟩ := Action.runTo_operation inside
  exact ⟨w', ends, ((World.Puts.write found rfl).before entered).after left⟩

end TableOps

namespace Value

variable {w : World} {h : Handle} {content : Table}

/-- Reading a member of a plain table gives what the table holds. -/
theorem runTo_index (kind : h.kind = .table) (found : w.cell? h.target = some (.table content none))
    (name : String) {v : Value} (shown : (content.get (.str name)).asValue = some v) (n : Nat) :
    ∃ v' w', ((Value.handle h).index (.text name)).runTo (n + 1) w = (.ok v', w') ∧ v'.bare = v ∧
      w.SameScene w' := by
  obtain ⟨e, engine⟩ := World.exists_engine_of_cell? found
  have isOpen : w.isOpen h.state := Option.isSome_iff_exists.mpr ⟨e, engine⟩
  have entered := World.SameScene.enter h.target.owner w
  rw [← entered.cell?] at found
  obtain ⟨v', w₁, gives, same, anchored⟩ :=
    straight_asValue shown ((Scope.operation h.target.owner).enter w)
  have inside : (do
      let key ← (Value.text name).toDatum h.target.owner
      let data ← runTask h.target.owner (.index (.table h.target) key)
      ofDatum (data.headD .nil)).runTo (n + 1) ((Scope.operation h.target.owner).enter w) =
        (.ok v', w₁) := by
    rw [Action.runTo_bind_ok (Action.runTo_straight (straight_toDatum rfl)),
      Action.runTo_bind_ok (Action.runTo_runTask (Script.straight_readMember found _))]
    exact Action.runTo_straight gives
  obtain ⟨w', ends, left⟩ := Action.runTo_operation inside
  refine ⟨v', w', ?_, same, (entered.trans anchored).trans left⟩
  simp only [index, kind]
  rw [Action.runTo_bind_ok (Action.runTo_straight (Action.straight_checkOpen isOpen))]
  exact ends

/-- Writing a member of a plain table changes what the table holds, and nothing else. -/
theorem runTo_setIndex (kind : h.kind = .table)
    (found : w.cell? h.target = some (.table content none)) (name : String) {v : Value} {d : Datum}
    (made : v.datum w h.state = .ok d) (n : Nat) :
    ∃ w', ((Value.handle h).setIndex (.text name) v).runTo (n + 1) w = (.ok (), w') ∧
      w.Puts h.target (.table (content.set (.str name) d) none) w' := by
  obtain ⟨e, engine⟩ := World.exists_engine_of_cell? found
  have isOpen : w.isOpen h.state := Option.isSome_iff_exists.mpr ⟨e, engine⟩
  obtain ⟨w', ends, puts⟩ := TableOps.runTo_set found (.text name) rfl made rfl (.inl rfl) n
  refine ⟨w', ?_, puts⟩
  simp only [setIndex, kind]
  rw [Action.runTo_bind_ok (Action.runTo_straight (Action.straight_checkOpen isOpen))]
  exact ends

end Value

namespace TableOps

/-- A new table has a place that was free. -/
theorem runTo_newTable {w : World} {s : StateId} (isOpen : w.isOpen s) (n : Nat) :
    ∃ r a w', (newTable s).runTo n w = (.ok (.handle ⟨.table, r, a⟩), w') ∧ r.owner = s ∧
      w.cell? r = none ∧ w.Puts r (.table {} none) w' := by
  have entered := World.SameScene.enter s w
  have isOpen' : ((Scope.operation s).enter w).isOpen s := by rwa [entered.stage.isOpen]
  obtain ⟨r, w₀, made, own, free, placed⟩ : ∃ r w₀,
      (Op.allocate s (.table {} none)).apply ((Scope.operation s).enter w) = (r, w₀) ∧ r.owner = s ∧
        World.cell? _ r = none ∧ World.Puts _ r (.table {} none) w₀ :=
    ⟨_, _, rfl, rfl, World.Puts.allocate isOpen' _⟩
  obtain ⟨a, w₁, anchors, anchored⟩ := Value.straight_anchored .table r w₀
  have inside : (do
      let r ← Action.perform (.allocate s (.table {} none))
      Value.anchored .table r).runTo n ((Scope.operation s).enter w) =
        (.ok (.handle ⟨.table, r, a⟩), w₁) := by
    refine Action.runTo_straight ?_
    rw [Action.straight_bind, Action.straight_perform, made]
    exact anchors
  obtain ⟨w', ends, left⟩ := Action.runTo_operation inside
  refine ⟨r, a, w', ends, own, ?_, ((placed.before entered).after anchored).after left⟩
  rw [← entered.cell?]
  exact free

end TableOps

namespace State

/-- The table of globals as a value. -/
theorem runTo_globals {w : World} {s : StateId} {e : Engine} (engine : w.engine? s = some e)
    (n : Nat) : ∃ a w', (globals s).runTo n w = (.ok (.handle ⟨.table, e.globals, a⟩), w') ∧
      w.SameScene w' := by
  have entered := World.SameScene.enter s w
  obtain ⟨e', engine', same, -⟩ := entered.stage.engine engine
  obtain ⟨a, w₁, anchors, anchored⟩ :=
    Value.straight_anchored .table e'.globals ((Scope.operation s).enter w)
  have begins : ∃ w', (globals s).runTo n w =
      (.ok (.handle ⟨.table, e'.globals, a⟩), w') ∧ w₁.SameScene w' := by
    unfold globals
    refine Action.runTo_operation ?_
    rw [Action.runTo_view_bind, engine']
    exact Action.runTo_straight anchors
  obtain ⟨w', ends, left⟩ := begins
  rw [same] at ends
  exact ⟨a, w', ends, (entered.trans anchored).trans left⟩

/-- How it is said that a path cannot be written because of what is on it. -/
def blocked (path : String) (walked : List String) (found : Datum) : BridgeError :=
  let before := ".".intercalate walked
  ⟨.pathTypeMismatch, s!"`{before}` is a {found.typeName} value while resolving `{path}`",
    some "state.set"⟩

theorem shown_of_typeName {d : Datum} (other : d.typeName ≠ "userdata") :
    ∃ v, d.asValue = some v := by
  cases d with
  | failure => exact absurd rfl other
  | _ => exact ⟨_, rfl⟩

theorem eq_nil_of_bare {v : Value} (shown : Datum.nil.asValue = some v.bare) : v = .nil := by
  cases v with
  | nil => rfl
  | _ => simp [Datum.asValue, Value.bare] at shown

theorem eq_handle_of_bare {v : Value} {r : Ref} (shown : (Datum.table r).asValue = some v.bare) :
    ∃ a, v = .handle ⟨.table, r, a⟩ := by
  cases v with
  | handle h =>
    obtain ⟨kind, target, a⟩ := h
    simp only [Datum.asValue, Value.bare, Option.some.injEq, Value.handle.injEq, Handle.mk.injEq]
      at shown
    exact ⟨a, by rw [← shown.1, ← shown.2.1]⟩
  | _ => simp [Datum.asValue, Value.bare] at shown

/-- A value that cannot be gone through on a path. -/
theorem of_blocks {d : Datum} {v : Value} (blocks : d.Blocks) (other : d.typeName ≠ "userdata")
    (shown : d.asValue = some v.bare) :
    v.isNil = false ∧ isIndexable v = false ∧ v.typeName = d.typeName := by
  cases d with
  | nil => exact absurd rfl blocks.1
  | table r => exact absurd rfl (blocks.2 r)
  | userdata | failure => exact absurd rfl other
  | function r | thread r =>
    cases v with
    | handle h =>
      simp only [Datum.asValue, Value.bare, Option.some.injEq, Value.handle.injEq, Handle.mk.injEq]
        at shown
      simp [Value.isNil, isIndexable, Value.typeName, ← shown.1, Datum.typeName, HandleKind.name]
    | _ => simp [Datum.asValue, Value.bare] at shown
  | bool | int | float | text =>
    cases v <;> simp_all [Datum.asValue, Value.bare, Value.isNil, isIndexable, Value.typeName,
      Datum.typeName]

/-- What writing along a path from a table comes to: it stops at what is the first to block the path,
and nothing has changed, or nothing blocks the path and the datum is stored. -/
def Writes (path : String) (before names : List String) (r : Ref) (d : Datum) (w : World)
    (result : Except Fault Unit) (w' : World) : Prop :=
  (∃ k, k < names.length ∧ (w.resolve (.table r) (names.take k)).Blocks ∧
    (∀ j, j < k → ¬ (w.resolve (.table r) (names.take j)).Blocks) ∧
    result = .error (.failed (blocked path (before ++ names.take k)
      (w.resolve (.table r) (names.take k)))) ∧ w.SameScene w') ∨
  ((∀ k, k < names.length → ¬ (w.resolve (.table r) (names.take k)).Blocks) ∧
    result = .ok () ∧ w.Stored w' r names d ∧ w.SameStage w')

theorem table_passable (r : Ref) : ¬ (Datum.table r).Blocks := fun blocks => blocks.2 r rfl

theorem nil_passable : ¬ Datum.nil.Blocks := fun blocks => blocks.1 rfl

namespace Writes

variable {w w₁ w₂ w' : World} {r r₁ : Ref} {path name : String} {before rest : List String}
  {content : Table} {d : Datum} {result : Except Fault Unit}

/-- The last name of a path is written. -/
theorem last (found : w.cell? r = some (.table content none))
    (puts : w.Puts r (.table (content.set (.str name) d) none) w') :
    Writes path before [name] r d w (.ok ()) w' := by
  refine .inr ⟨fun k small => ?_, rfl, .last found puts, puts.stage⟩
  obtain rfl : k = 0 := by simpa using small
  exact table_passable r

/-- The first name of a path leads to what blocks it. -/
theorem stopped (more : rest ≠ []) (blocks : (w.member (.table r) name).Blocks)
    (scene : w.SameScene w') :
    Writes path before (name :: rest) r d w
      (.error (.failed (blocked path (before ++ [name]) (w.member (.table r) name)))) w' := by
  refine .inl ⟨1, by simpa using List.length_pos_iff.mpr more, blocks, fun j small => ?_, rfl, scene⟩
  obtain rfl : j = 0 := by omega
  exact table_passable r

/-- Scenes that are the same before and after make no difference. -/
theorem of_scene {names : List String} (before' : w.SameScene w₁)
    (writes : Writes path before names r d w₁ result w₂) (after : w₂.SameScene w') :
    Writes path before names r d w result w' := by
  rw [Writes, before'.resolve] at writes
  rcases writes with ⟨k, small, blocks, first, ends, scene⟩ | ⟨free, ends, stored, stage⟩
  · exact .inl ⟨k, small, blocks, first, ends, (before'.trans scene).trans after⟩
  · exact .inr ⟨free, ends, (stored.of_scene before').after after,
      (before'.stage.trans stage).trans after.stage⟩

/-- Writing goes on from the table that the first name of the path leads to. -/
theorem through (clear : w.Clear s r (name :: rest)) (leads : w.member (.table r) name = .table r₁)
    (scene : w.SameScene w₁) (onward : Writes path (before ++ [name]) rest r₁ d w₁ result w') :
    Writes path before (name :: rest) r d w result w' := by
  have resolves (k : Nat) : w.resolve (.table r) ((name :: rest).take (k + 1)) =
      w₁.resolve (.table r₁) (rest.take k) := by
    rw [scene.resolve, ← leads]
    rfl
  rcases onward with ⟨k, small, blocks, first, rfl, scene'⟩ | ⟨free, rfl, stored, stage⟩
  · refine .inl ⟨k + 1, Nat.succ_lt_succ small, by rwa [resolves], fun j less => ?_, ?_,
      scene.trans scene'⟩
    · cases j with
      | zero => exact table_passable r
      | succ j =>
        rw [resolves]
        exact first j (Nat.lt_of_succ_lt_succ less)
    · rw [resolves]
      simp
  · refine .inr ⟨fun k small => ?_, rfl, .through clear leads (stored.of_scene scene),
      scene.stage.trans stage⟩
    cases k with
    | zero => exact table_passable r
    | succ k =>
      rw [resolves]
      exact free k (Nat.lt_of_succ_lt_succ small)

/-- Writing goes on from a table that was missing and has been made: nothing can block it there. -/
theorem made (attaches : w.Attaches r content name r₁ w₂)
    (onward : Writes path (before ++ [name]) rest r₁ d w₂ result w') :
    Writes path before (name :: rest) r d w result w' := by
  rcases onward with ⟨k, small, blocks, -⟩ | ⟨-, rfl, stored, stage⟩
  · rcases attaches.resolve_take small.le with rfl | absent
    · exact absurd blocks (table_passable r₁)
    · rw [absent] at blocks
      exact absurd blocks nil_passable
  · refine .inr ⟨fun k small => ?_, rfl, .made attaches stored, attaches.stage.trans stage⟩
    cases k with
    | zero => exact table_passable r
    | succ k =>
      rw [List.take_succ_cons, World.resolve_cons, attaches.missing, World.resolve_absent]
      exact nil_passable

end Writes

/-- A table that is missing is made and attached. -/
theorem runTo_attach {w : World} {s : StateId} {r : Ref} {a : AnchorId} {content : Table}
    {name : String} (own : r.owner = s) (isOpen : w.isOpen s)
    (found : w.cell? r = some (.table content none)) (missing : w.member (.table r) name = .nil)
    (n : Nat) :
    ∃ r₁ a₁ w₂, (∀ f : Value → Action Value, (do
        let table ← TableOps.newTable s
        (Value.handle ⟨.table, r, a⟩).setIndex (.text name) table
        f table).runTo (n + 1) w = (f (.handle ⟨.table, r₁, a₁⟩)).runTo (n + 1) w₂) ∧
      r₁.owner = s ∧ w.Attaches r content name r₁ w₂ := by
  obtain ⟨r₁, a₁, w₁, makes, own₁, free, placed⟩ := TableOps.runTo_newTable isOpen (n + 1)
  have isOpen₁ : w₁.isOpen s := by rwa [placed.stage.isOpen]
  have apart : r₁ ≠ r := by
    rintro rfl
    cases free.symm.trans found
  have found₁ : w₁.cell? r = some (.table content none) := by
    rw [placed.others r apart.symm, found]
  have value : (Value.handle ⟨.table, r₁, a₁⟩).datum w₁ r.owner = .ok (.table r₁) := by
    simp [Value.datum, Handle.state, Handle.datum, own, own₁, isOpen₁]
  obtain ⟨w₂, attaches, attached⟩ :=
    Value.runTo_setIndex (h := ⟨.table, r, a⟩) rfl found₁ name value n
  refine ⟨r₁, a₁, w₂, fun f => ?_, own₁, found, missing, free, ?_, attached.there, ?_,
    placed.stage.trans attached.stage⟩
  · rw [Action.runTo_bind_ok makes, Action.runTo_bind_ok attaches]
  · rw [attached.others r₁ apart, placed.there]
  · intro x old new
    rw [attached.others x old, placed.others x new]

/-- Going along a path and writing its last name. -/
theorem runTo_makeWay {s : StateId} (path : String) (before parents : List String) {last : String}
    {v : Value} {d : Datum} {n : Nat} {w : World} {r : Ref} {a : AnchorId}
    (own : r.owner = s) (isOpen : w.isOpen s) (made : v.datum w s = .ok d)
    (clear : w.Clear s r (parents ++ [last])) :
    ∃ result w', (makeWay s path before (.handle ⟨.table, r, a⟩) parents >>= fun table =>
        table.setIndex (.text last) v).runTo (n + 1) w = (result, w') ∧
      Writes path before (parents ++ [last]) r d w result w' := by
  induction parents generalizing w r a before with
  | nil =>
    obtain ⟨content, found⟩ := clear.tables 0 (Nat.succ_pos _) r rfl
    subst own
    obtain ⟨w', ends, puts⟩ := Value.runTo_setIndex (h := ⟨.table, r, a⟩) rfl found last made n
    exact ⟨_, w', ends, .last found puts⟩
  | cons name parents ih =>
    obtain ⟨content, found⟩ := clear.tables 0 (Nat.succ_pos _) r rfl
    have more : 1 < ((name :: parents) ++ [last]).length := by simp
    have leads := World.member_table found name
    have other : (content.get (.str name)).typeName ≠ "userdata" := by
      rw [← leads]
      exact clear.noUserdata 1 more
    obtain ⟨shown, shows⟩ := shown_of_typeName other
    obtain ⟨next, w₁, reads, same, scene⟩ :=
      Value.runTo_index (h := ⟨.table, r, a⟩) rfl found name shows n
    rw [← same] at shows
    have isOpen₁ : w₁.isOpen s := by rwa [scene.stage.isOpen]
    simp only [makeWay, bind_assoc]
    rw [Action.runTo_bind_ok reads]
    by_cases missing : content.get (.str name) = .nil
    · rw [missing] at leads shows
      obtain rfl := eq_nil_of_bare shows
      obtain ⟨r₁, a₁, w₂, goes, own₁, attaches⟩ := runTo_attach (a := a) own isOpen₁
        (by rwa [scene.cell?]) (by rwa [scene.member]) n
      replace attaches := attaches.before scene
      obtain ⟨result, w', ends, writes⟩ := ih (before ++ [name]) (a := a₁) own₁
        (by rwa [attaches.stage.isOpen]) ((Value.datum_congr attaches.stage.isOpen).trans made)
        (.of_empty attaches.empty own₁ _)
      refine ⟨result, w', ?_, .made attaches writes⟩
      simp only [Value.isNil, if_true]
      rw [Action.runTo_bind, goes, ← Action.runTo_bind]
      exact ends
    by_cases table : ∃ r₁, content.get (.str name) = .table r₁
    · obtain ⟨r₁, table⟩ := table
      rw [table] at leads shows
      obtain ⟨a₁, rfl⟩ := eq_handle_of_bare shows
      obtain ⟨result, w', ends, writes⟩ := ih (before ++ [name]) (a := a₁)
        (clear.own 1 more r₁ leads) isOpen₁ ((Value.datum_congr scene.stage.isOpen).trans made)
        ((clear.tail leads).congr scene)
      exact ⟨result, w', ends, .through clear leads scene writes⟩
    · have blocks : (w.member (.table r) name).Blocks := by
        rw [leads]
        exact ⟨missing, fun r₁ is => table ⟨r₁, is⟩⟩
      obtain ⟨isNil, indexable, typeName⟩ := of_blocks (leads ▸ blocks) other shows
      refine ⟨_, w₁, ?_, .stopped (by simp) blocks scene⟩
      rw [isNil, indexable]
      simp only [Bool.false_eq_true, if_false]
      rw [Action.runTo_bind_error (Action.runTo_throw ..)]
      simp only [leads, blocked, pathMismatch, typeName]

/-- Reading along a path through plain tables. -/
theorem runTo_follow (path : String) (before names : List String) {v : Value} {n : Nat} {w : World}
    {r : Ref} {a : AnchorId} (passes : w.Passes r names)
    (shown : (w.resolve (.table r) names).asValue = some v) (bare : v.bare = v) :
    ∃ v' w', (follow path before (.handle ⟨.table, r, a⟩) names).runTo (n + 1) w = (.ok v', w') ∧
      v'.bare = v ∧ w.SameScene w' := by
  induction names generalizing w r a before with
  | nil =>
    cases shown
    exact ⟨_, w, Action.runTo_pure _ _ _, rfl, .refl w⟩
  | cons name rest ih =>
    obtain ⟨_, content, start, found⟩ := passes 0 (Nat.succ_pos _)
    cases start
    have leads := World.member_table found name
    rw [World.resolve_cons, leads] at shown
    have reads {next : Value} {w₁ : World} (same : ((Value.handle ⟨.table, r, a⟩).index
        (.text name)).runTo (n + 1) w = (.ok next, w₁)) :
        (follow path before (.handle ⟨.table, r, a⟩) (name :: rest)).runTo (n + 1) w =
          (follow path (before ++ [name]) next rest).runTo (n + 1) w₁ := by
      rw [follow, if_pos (show isIndexable (.handle ⟨.table, r, a⟩) = true from rfl),
        Action.runTo_bind_ok same]
    cases rest with
    | nil =>
      obtain ⟨v', w₁, same, bare', scene⟩ :=
        Value.runTo_index (h := ⟨.table, r, a⟩) rfl found name shown n
      exact ⟨v', w₁, (reads same).trans (Action.runTo_pure _ _ _), bare', scene⟩
    | cons second rest =>
      obtain ⟨r₁, content₁, onward, found₁⟩ := passes 1 (by simp)
      have table : content.get (.str name) = .table r₁ := by
        rw [← leads]
        exact onward
      rw [table] at shown leads
      obtain ⟨next, w₁, same, bare', scene⟩ := Value.runTo_index (h := ⟨.table, r, a⟩) rfl found name
        (v := .handle ⟨.table, r₁, 0⟩) (by rw [table]; rfl) n
      obtain ⟨a₁, rfl⟩ := eq_handle_of_bare (congrArg some bare'.symm)
      have passes₁ : w₁.Passes r₁ (second :: rest) := by
        intro k small
        rw [scene.resolve, scene.cells, ← leads]
        exact passes (k + 1) (Nat.succ_lt_succ small)
      rw [← scene.resolve] at shown
      obtain ⟨v', w', ends, same', scene'⟩ := ih (before ++ [name]) (a := a₁) passes₁ shown
      exact ⟨v', w', (reads same).trans ends, same', scene.trans scene'⟩

/-- The names of a path that is well formed. -/
theorem names_ne_nil {path : String} {names : List String} (formed : segments path = .ok names) :
    names ≠ [] := by
  unfold segments at formed
  dsimp only at formed
  split at formed
  · cases formed
  · cases formed
    rw [Text.splitOn_eq]
    simp [List.splitOn_ne_nil]

theorem dropLast_getLastD {names : List String} (some : names ≠ []) :
    names.dropLast ++ [names.getLastD ""] = names := by
  rw [List.getLastD_eq_getLast?, List.getLast?_eq_some_getLast some, Option.getD_some,
    List.dropLast_concat_getLast]

section Paths

variable {w : World} {s : StateId} {e : Engine} {path : String} {names : List String} {v : Value}
  {d : Datum}

/-- Writing along a path from the table of globals. -/
theorem runTo_set (isolated : w.Isolated) (engine : w.engine? s = some e)
    (formed : segments path = .ok names) (made : v.datum w s = .ok d)
    (unhindered : w.Unhindered e.globals names) (n : Nat) :
    ∃ result w', (set s path v).runTo (n + 1) w = (result, w') ∧
      Writes path [] names e.globals d w result w' := by
  have own : e.globals.owner = s := World.Isolated.globals isolated engine
  have split := dropLast_getLastD (names_ne_nil formed)
  have entered := World.SameScene.enter s w
  obtain ⟨e', engine', same, -⟩ := entered.stage.engine engine
  obtain ⟨a, w₁, begins, scene⟩ := runTo_globals engine' (n + 1)
  rw [same] at begins
  replace scene := entered.trans scene
  have clear : w₁.Clear s e.globals (names.dropLast ++ [names.getLastD ""]) := by
    rw [split]
    exact own ▸ (unhindered.clear isolated).congr scene
  obtain ⟨result, w₂, ends, writes⟩ := runTo_makeWay path [] names.dropLast (n := n) (a := a) own (by rw [scene.stage.isOpen]; simp [World.isOpen, engine])
    ((Value.datum_congr scene.stage.isOpen).trans made) clear
  rw [split] at writes
  have inside : (do
      let parts ← Action.ofExcept (segments path)
      let table ← makeWay s path [] (← globals s) parts.dropLast
      table.setIndex (.text (parts.getLastD "")) v : Action Unit).runTo (n + 1) ((Scope.operation s).enter w) =
        (result, w₂) := by
    rw [formed]
    exact (Action.runTo_bind_ok begins).trans ends
  obtain ⟨w', ends', left⟩ := Action.runTo_operation inside
  exact ⟨result, w', ends', writes.of_scene scene left⟩

/-- Reading along a path from the table of globals. -/
theorem runTo_get (engine : w.engine? s = some e) (formed : segments path = .ok names)
    (passes : w.Passes e.globals names)
    (shown : (w.resolve (.table e.globals) names).asValue = some v) (bare : v.bare = v) (n : Nat) :
    ∃ v' w', (get s path).runTo (n + 1) w = (.ok v', w') ∧ v'.bare = v ∧ w.SameScene w' := by
  have entered := World.SameScene.enter s w
  obtain ⟨e', engine', same, -⟩ := entered.stage.engine engine
  obtain ⟨a, w₁, begins, scene⟩ := runTo_globals engine' (n + 1)
  rw [same] at begins
  replace scene := entered.trans scene
  have passes₁ : w₁.Passes e.globals names := by
    intro k small
    rw [scene.resolve, scene.cells]
    exact passes k small
  rw [← scene.resolve] at shown
  obtain ⟨v', w₂, ends, same', scene'⟩ :=
    runTo_follow path [] names (n := n) (a := a) passes₁ shown bare
  have inside : (do
      let parts ← Action.ofExcept (segments path)
      follow path [] (← globals s) parts : Action Value).runTo (n + 1) ((Scope.operation s).enter w) =
        (.ok v', w₂) := by
    rw [formed]
    exact (Action.runTo_bind_ok begins).trans ends
  obtain ⟨w', ends', left⟩ := Action.runTo_operation inside
  exact ⟨v', w', ends', same', (scene.trans scene').trans left⟩

/-- Writing a global by its path through tables without metatables: what is the first to block the
path is an error, which names it, and nothing changes; otherwise the value is stored at the end of the
path, and reading the path gives it back. -/
theorem set_path (isolated : w.Isolated) (engine : w.engine? s = some e)
    (formed : segments path = .ok names) (belongs : v.BelongsTo s)
    (unhindered : w.Unhindered e.globals names) (n : Nat) :
    (∀ k, k < names.length → (w.resolve (.table e.globals) (names.take k)).Blocks →
      (∀ j, j < k → ¬ (w.resolve (.table e.globals) (names.take j)).Blocks) →
      ∃ w', (set s path v).runTo (n + 1) w = (.error (.failed (blocked path (names.take k)
        (w.resolve (.table e.globals) (names.take k)))), w') ∧ w'.cell? = w.cell?) ∧
    ((∀ k, k < names.length → ¬ (w.resolve (.table e.globals) (names.take k)).Blocks) →
      ∃ d w', v.datum w s = .ok d ∧ (set s path v).runTo (n + 1) w = (.ok (), w') ∧
        w.Stored w' e.globals names d ∧
        ∀ m, ∃ v' w'', (get s path).runTo (m + 1) w' = (.ok v', w'') ∧ v'.bare = v.bare) := by
  obtain ⟨d, made⟩ := belongs.datum (w := w) (by simp [World.isOpen, engine])
  obtain ⟨result, w', ends, writes⟩ := runTo_set isolated engine formed made unhindered n
  rcases writes with ⟨k, small, blocks, first, rfl, scene⟩ | ⟨free, rfl, stored, stage⟩
  · refine ⟨fun k' small' blocks' first' => ⟨w', ?_, scene.cells⟩, fun none =>
      absurd blocks (none k small)⟩
    obtain rfl : k' = k := by
      rcases Nat.lt_trichotomy k' k with less | same | more
      · exact absurd blocks' (first k' less)
      · exact same
      · exact absurd blocks (first' k more)
    exact ends
  · refine ⟨fun k small blocks => absurd blocks (free k small), fun _ =>
      ⟨d, w', made, ends, stored, fun m => ?_⟩⟩
    obtain ⟨e', engine', same, -⟩ := stage.engine engine
    obtain ⟨v', w'', reads, same', -⟩ := runTo_get (v := v.bare) engine' formed
      (same ▸ stored.passes) (by rw [same, stored.reached]; exact Value.asValue_of_datum made)
      (by cases v <;> rfl) m
    exact ⟨v', w'', reads, same'⟩

end Paths

/-- A world with a state in which `config` is a table with a number for `limit`. -/
def configured : World :=
  let w := (({} : World).openEngine {}).2
  let (_, w) := w.allocate 0 (.table (Table.set {} (.str "limit") (.int 5)) none)
  w.write ⟨0, 0⟩ (.table (Table.set {} (.str "config") (.table ⟨0, 2⟩)) none)

namespace configured

theorem isolated : configured.Isolated := by
  have filled (name : String) (d : Datum) (own : Owned 0 d.refs) :
      Owned 0 (Cell.table (Table.set {} (.str name) d) none).refs := by
    simpa [Cell.refs] using
      Script.Table.set_owned (t := {}) (by simp [Table.refs]) (Owned.nil (s := 0)) own
  have opened := World.isolated_openEngine World.isolated_empty {}
  have made : ((({} : World).openEngine {}).2.allocate 0
      (.table (Table.set {} (.str "limit") (.int 5)) none)).2.Isolated :=
    opened.modifyEngine fun e _ own => own.add (filled "limit" (.int 5) (by simp))
  exact made.modifyEngine fun e _ own =>
    own.modify (filled "config" (.table ⟨0, 2⟩) (by simp)) 0 _

theorem member_globals (name : String) :
    configured.member (.table ⟨0, 0⟩) name = if name = "config" then .table ⟨0, 2⟩ else .nil := by
  have found : configured.cell? ⟨0, 0⟩ =
      some (.table (Table.set {} (.str "config") (.table ⟨0, 2⟩)) none) := rfl
  rw [World.member_table found, Script.Table.get_set_str]
  rfl

theorem member_config (name : String) :
    configured.member (.table ⟨0, 2⟩) name = if name = "limit" then .int 5 else .nil := by
  have found : configured.cell? ⟨0, 2⟩ =
      some (.table (Table.set {} (.str "limit") (.int 5)) none) := rfl
  rw [World.member_table found, Script.Table.get_set_str]
  rfl

theorem unhindered (second third : String) :
    configured.Unhindered ⟨0, 0⟩ ["config", second, third] := by
  have first : configured.resolve (.table ⟨0, 0⟩) ["config"] = .table ⟨0, 2⟩ := by
    simp [member_globals]
  have last : configured.resolve (.table ⟨0, 0⟩) ["config", second] =
      if second = "limit" then .int 5 else .nil := by
    simp [member_globals, member_config]
  have bare (r : Ref) : configured.resolve (.table ⟨0, 0⟩) ["config", second] ≠ .table r := by
    rw [last]
    split <;> simp
  refine ⟨fun k small r' leads => ?_, fun k small => ?_, fun i j less small r' leads => ?_⟩
  · match k, small with
    | 0, _ =>
      cases leads
      exact ⟨_, rfl⟩
    | 1, _ =>
      cases first.symm.trans leads
      exact ⟨_, rfl⟩
    | 2, _ => exact absurd leads (bare r')
  · match k, small with
    | 0, _ => exact (by decide : (Datum.table ⟨0, 0⟩).typeName ≠ "userdata")
    | 1, _ => exact first ▸ (by decide : (Datum.table ⟨0, 2⟩).typeName ≠ "userdata")
    | 2, _ =>
      change (configured.resolve (.table ⟨0, 0⟩) ["config", second]).typeName ≠ _
      rw [last]
      split <;> decide
  · match j, small with
    | 1, _ =>
      obtain rfl : i = 0 := by omega
      cases leads
      exact fun again => by cases first.symm.trans again
    | 2, _ => exact bare r'

end configured

theorem set_path_configured :
    (∃ w', (set 0 "config.limit.high" (.int 7)).run configured =
      (.error (.failed ⟨.pathTypeMismatch,
        "`config.limit` is a number value while resolving `config.limit.high`",
        some "state.set"⟩), w') ∧ w'.cell? = configured.cell?) ∧
    ∃ w', (set 0 "config.levels.high" (.int 7)).run configured = (.ok (), w') ∧
      ∃ w'', (get 0 "config.levels.high").run w' = (.ok (.int 7), w'') := by
  obtain ⟨e, engine, globals⟩ : ∃ e, configured.engine? 0 = some e ∧ e.globals = ⟨0, 0⟩ :=
    ⟨_, rfl, rfl⟩
  have own : (Value.int 7).BelongsTo 0 := fun _ none => by cases none
  obtain ⟨stops, -⟩ := set_path configured.isolated engine
    (show segments "config.limit.high" = .ok ["config", "limit", "high"] from rfl) own
    (globals ▸ configured.unhindered "limit" "high") 199
  obtain ⟨-, goes⟩ := set_path configured.isolated engine
    (show segments "config.levels.high" = .ok ["config", "levels", "high"] from rfl) own
    (globals ▸ configured.unhindered "levels" "high") 199
  rw [globals] at stops goes
  have first : configured.resolve (.table ⟨0, 0⟩) ["config"] = .table ⟨0, 2⟩ := by
    simp [configured.member_globals]
  have limit : configured.resolve (.table ⟨0, 0⟩) ["config", "limit"] = .int 5 := by
    simp [configured.member_globals, configured.member_config]
  have levels : configured.resolve (.table ⟨0, 0⟩) ["config", "levels"] = .nil := by
    simp [configured.member_globals, configured.member_config]
  constructor
  · obtain ⟨w', ends, same⟩ := stops 2 (by decide)
      (by
        change (configured.resolve (.table ⟨0, 0⟩) ["config", "limit"]).Blocks
        rw [limit]
        exact ⟨by decide, by simp⟩)
      fun j less => by
        match j, less with
        | 0, _ => exact table_passable _
        | 1, _ => exact first ▸ table_passable _
    refine ⟨w', ends.trans ?_, same⟩
    change (Except.error (Fault.failed (blocked _ ["config", "limit"]
      (configured.resolve (.table ⟨0, 0⟩) ["config", "limit"]))), w') = _
    rw [limit]
    rfl
  · obtain ⟨d, w', -, ends, -, reads⟩ := goes fun k small => by
      match k, small with
      | 0, _ => exact table_passable _
      | 1, _ => exact first ▸ table_passable _
      | 2, _ => exact levels ▸ nil_passable
    obtain ⟨v', w'', gives, same⟩ := reads 199
    refine ⟨w', ends, w'', ?_⟩
    cases v' with
    | int i =>
      cases same
      exact gives
    | _ => cases same

end State

end ScriptBridge
