import ScriptBridge.Proofs.Apart
import ScriptBridge.Proofs.Shifting
import ScriptBridge.Proofs.Straight

/-!
Shifting a sequence: how a shift ends and what is in the table then, in exact and in 64-bit
arithmetic; what becomes of the items; and what a shift that fails leaves behind.
-/

namespace ScriptBridge

open Script (Cell Datum Table)

namespace TableOps

/-- How a shift of a table ends and what is in the table then; the item to put in may be of no use. -/
def shifted (content : Table) (start count : Int) (fill : Except BridgeError Datum) :
    Except BridgeError Unit × Table :=
  let length : Int := content.length
  if start < 1 ∨ length + 1 < start then
    (.error ⟨.typeMismatch, s!"shift start {start} out of range 1..={length + 1}",
      some "value.shift"⟩, content)
  else if count < 0 then
    (.ok (), shiftDown content start length (min (-count) (length - start + 1)))
  else if 0 < count then
    if maxInteger < length + count ∨ maxInteger < start + count then
      (.error ⟨.typeMismatch, s!"shift count {count} overflows the sequence of length {length}",
        some "value.shift"⟩, content)
    else
      let moved := shiftUp content start length count
      match fill with
      | .ok d => (.ok (), fillFrom moved start count d)
      | .error e => (.error e, moved)
  else (.ok (), content)

section Checked

/-- The sum of two 64-bit integers, unless it overflows. -/
def sum? (a b : Int64) : Option Int64 := if Fits (a.toInt + b.toInt) then some (a + b) else none

/-- The difference of two 64-bit integers, unless it overflows. -/
def difference? (a b : Int64) : Option Int64 :=
  if Fits (a.toInt - b.toInt) then some (a - b) else none

theorem sum?_eq {a b : Int64} (fits : Fits (a.toInt + b.toInt)) :
    sum? a b = some (.ofInt (a.toInt + b.toInt)) := by
  rw [sum?, if_pos fits, Int64.ofInt_add, Int64.ofInt_toInt, Int64.ofInt_toInt]

theorem difference?_eq {a b : Int64} (fits : Fits (a.toInt - b.toInt)) :
    difference? a b = some (.ofInt (a.toInt - b.toInt)) := by
  rw [difference?, if_pos fits, Int64.ofInt_sub, Int64.ofInt_toInt, Int64.ofInt_toInt]

def shiftDown? (content : Table) (start length n : Int64) : Option Table :=
  (List.range (length.toInt - start.toInt + 1).toNat).foldlM (fun (content : Table) (k : Nat) => do
    let i ← sum? start (.ofNat k)
    let source ← sum? i n
    pure (content.set (.int i) (if source ≤ length then content.get (.int source) else .nil))) content

def shiftUp? (content : Table) (start length n : Int64) : Option Table :=
  (List.range (length.toInt - start.toInt + 1).toNat).foldlM (fun (content : Table) (k : Nat) => do
    let i ← difference? length (.ofNat k)
    let target ← sum? i n
    pure (content.set (.int target) (content.get (.int i)))) content

def fillFrom? (content : Table) (start n : Int64) (fill : Datum) : Option Table :=
  (List.range n.toInt.toNat).foldlM (fun (content : Table) (k : Nat) => do
    let i ← sum? start (.ofNat k)
    pure (content.set (.int i) fill)) content

/-- A shift in 64-bit arithmetic: nothing comes of it where a sum overflows. -/
def shifted? (content : Table) (start count : Int64) (fill : Except BridgeError Datum) :
    Option (Except BridgeError Unit × Table) := do
  let length := Int64.ofNat content.length
  let bound ← sum? length 1
  if start < 1 ∨ bound < start then
    pure (.error ⟨.typeMismatch, s!"shift start {start.toInt} out of range 1..={bound.toInt}",
      some "value.shift"⟩, content)
  else if count < 0 then
    let rest ← sum? (← difference? length start) 1
    let wanted := if count = Int64.minValue then Int64.maxValue else -count
    pure (.ok (), ← shiftDown? content start length (if wanted ≤ rest then wanted else rest))
  else if 0 < count then
    match sum? length count, sum? start count with
    | some _, some _ =>
      let moved ← shiftUp? content start length count
      match fill with
      | .ok d => pure (.ok (), ← fillFrom? moved start count d)
      | .error e => pure (.error e, moved)
    | _, _ =>
      pure (.error ⟨.typeMismatch,
        s!"shift count {count.toInt} overflows the sequence of length {length.toInt}",
        some "value.shift"⟩, content)
  else pure (.ok (), content)

/-- A loop of which no turn overflows. -/
theorem foldlM_eq {f? : Table → Nat → Option Table} {f : Table → Nat → Table} {turns : Nat}
    (turn : ∀ k < turns, ∀ t, f? t k = some (f t k)) (t : Table) :
    (List.range turns).foldlM f? t = some ((List.range turns).foldl f t) := by
  induction turns with
  | zero => rfl
  | succ n ih =>
    rw [List.range_succ, List.foldlM_append, ih fun k small => turn k (Nat.lt_succ_of_lt small),
      List.foldl_append]
    simp [turn n (Nat.lt_succ_self n)]

variable (content : Table) {start length n : Int64}

theorem toInt_ofNat {k : Nat} (small : (k : Int) ≤ maxInteger) : (Int64.ofNat k).toInt = k := by
  rw [maxInteger_eq] at small
  exact Int64.toInt_ofNat_of_lt (by omega)

theorem shiftDown?_eq (first : 1 ≤ start.toInt) (down : 0 ≤ n.toInt)
    (short : length.toInt + n.toInt ≤ maxInteger) :
    shiftDown? content start length n =
      some (shiftDown content start.toInt length.toInt n.toInt) := by
  have low : Int64.minValue.toInt ≤ 0 := by decide
  refine foldlM_eq (fun k small t => ?_) content
  have here : Fits (start.toInt + k) := ⟨by omega, by omega⟩
  have there : Fits (start.toInt + k + n.toInt) := ⟨by omega, by omega⟩
  have number : (Int64.ofNat k).toInt = k := toInt_ofNat (by omega)
  rw [sum?_eq (by rwa [number]), number, Option.bind_eq_bind, Option.bind_some,
    sum?_eq (by rwa [toInt_ofInt here]), toInt_ofInt here, Option.bind_some]
  simp only [Int64.le_iff_toInt_le, toInt_ofInt there]
  rfl

theorem shiftUp?_eq (first : 1 ≤ start.toInt) (up : 0 ≤ n.toInt)
    (short : length.toInt + n.toInt ≤ maxInteger) :
    shiftUp? content start length n = some (shiftUp content start.toInt length.toInt n.toInt) := by
  have low : Int64.minValue.toInt ≤ 0 := by decide
  refine foldlM_eq (fun k small t => ?_) content
  have here : Fits (length.toInt - k) := ⟨by omega, by omega⟩
  have there : Fits (length.toInt - k + n.toInt) := ⟨by omega, by omega⟩
  have number : (Int64.ofNat k).toInt = k := toInt_ofNat (by omega)
  rw [difference?_eq (by rwa [number]), number, Option.bind_eq_bind, Option.bind_some,
    sum?_eq (by rwa [toInt_ofInt here]), toInt_ofInt here, Option.bind_some]
  rfl

theorem fillFrom?_eq (first : 1 ≤ start.toInt) (short : start.toInt + n.toInt ≤ maxInteger)
    (fill : Datum) :
    fillFrom? content start n fill = some (fillFrom content start.toInt n.toInt fill) := by
  have low : Int64.minValue.toInt ≤ 0 := by decide
  refine foldlM_eq (fun k small t => ?_) content
  have here : Fits (start.toInt + k) := ⟨by omega, by omega⟩
  have number : (Int64.ofNat k).toInt = k := toInt_ofNat (by omega)
  rw [sum?_eq (by rwa [number]), number, Option.bind_eq_bind, Option.bind_some]
  rfl


/-- How many items are removed: the negation of the least integer is cut off. -/
theorem toInt_removedCount {count : Int64} (rest : Int64) (negative : count.toInt < 0)
    (room : rest.toInt < maxInteger) :
    let wanted := if count = Int64.minValue then Int64.maxValue else -count
    (if wanted ≤ rest then wanted else rest).toInt = min (-count.toInt) rest.toInt := by
  intro wanted
  have number : wanted.toInt = min (-count.toInt) maxInteger := by
    rw [maxInteger_eq]
    by_cases least : count = Int64.minValue
    · rw [show wanted = Int64.maxValue from if_pos least, least]
      rfl
    · have above : count.toInt ≠ -2 ^ 63 := fun same => least (Int64.toInt_inj.mp same)
      have below := count.le_toInt
      rw [show wanted = -count from if_neg least, ← Int64.ofInt_toInt count, ← Int64.ofInt_neg,
        Int64.ofInt_toInt, toInt_ofInt (fits_iff.mpr ⟨by omega, by omega⟩)]
      omega
  split
  · rename_i less
    rw [Int64.le_iff_toInt_le] at less
    omega
  · rename_i more
    rw [Int64.le_iff_toInt_le] at more
    omega

/-- No sum of a shift overflows, as long as twice the length is an integer. -/
theorem shifted?_eq (small : 2 * (content.length : Int) ≤ maxInteger) (count : Int64)
    (fill : Except BridgeError Datum) :
    shifted? content start count fill = some (shifted content start.toInt count.toInt fill) := by
  have low : Int64.minValue.toInt < 0 := by decide
  have high : 1 < maxInteger := by decide
  have size : (Int64.ofNat content.length).toInt = content.length := toInt_ofNat (by omega)
  have zero : Int64.toInt 0 = 0 := rfl
  have one : Int64.toInt 1 = 1 := rfl
  have next : Fits (content.length + 1) := ⟨by omega, by omega⟩
  unfold shifted? shifted
  dsimp only
  rw [sum?_eq (by rwa [size]), Option.bind_eq_bind, Option.bind_some]
  simp only [Int64.lt_iff_toInt_lt, size, zero, one, toInt_ofInt next]
  split
  · rfl
  rename_i within
  split
  · rename_i negative
    have left : Fits (content.length - start.toInt) := ⟨by omega, by omega⟩
    have rest : Fits (content.length - start.toInt + 1) := ⟨by omega, by omega⟩
    have chosen := toInt_removedCount (.ofInt (content.length - start.toInt + 1)) negative
      (by rw [toInt_ofInt rest]; omega)
    rw [toInt_ofInt rest] at chosen
    rw [difference?_eq (by rwa [size]), Option.bind_some, size, sum?_eq (by rwa [toInt_ofInt left]),
      Option.bind_some, toInt_ofInt left, one,
      shiftDown?_eq content (by omega) (by rw [chosen]; omega) (by rw [chosen, size]; omega),
      chosen, size]
    rfl
  split
  · rename_i positive
    unfold sum?
    simp only [size]
    by_cases exceeds : maxInteger < content.length + count.toInt ∨ maxInteger < start.toInt + count.toInt
    · rw [if_pos exceeds]
      by_cases long : maxInteger < content.length + count.toInt
      · rw [if_neg fun fits => Int.not_le.mpr long fits.2]
        rfl
      · rw [if_neg (c := Fits (start.toInt + count.toInt)) fun fits => long (by have := fits.2; omega)]
        split <;> simp_all
    · rw [if_neg exceeds, if_pos ⟨by omega, by omega⟩, if_pos ⟨by omega, by omega⟩]
      dsimp only
      rw [shiftUp?_eq content (by omega) (by omega) (by rw [size]; omega), size,
        Option.bind_eq_bind, Option.bind_some]
      cases fill with
      | error e => rfl
      | ok d =>
        dsimp only
        rw [fillFrom?_eq _ (by omega) (by omega)]
        rfl
  · rfl

end Checked

section Outcome

variable {content : Table} {items : List Datum} {start count : Int} {d : Datum}

/-- How a shift ends that has no place in a sequence. -/
def IsShiftError (ended : Except BridgeError Unit) : Prop :=
  ∃ message, ended = .error ⟨.typeMismatch, message, some "value.shift"⟩

theorem shifted_outside (outside : ¬ (1 ≤ start ∧ start ≤ content.length + 1)) (count : Int)
    (fill : Except BridgeError Datum) :
    (shifted content start count fill).2 = content ∧
      IsShiftError (shifted content start count fill).1 := by
  unfold shifted
  dsimp only
  rw [if_pos (by omega)]
  exact ⟨rfl, _, rfl⟩

section Inside

variable (first : 1 ≤ start) (last : start ≤ content.length + 1)
include first last

theorem shifted_removing (negative : count < 0) (fill : Except BridgeError Datum) :
    shifted content start count fill = (.ok (),
      shiftDown content start content.length (min (-count) (content.length - start + 1))) := by
  unfold shifted
  dsimp only
  rw [if_neg (by omega), if_pos negative]

theorem shifted_nothing (fill : Except BridgeError Datum) :
    shifted content start 0 fill = (.ok (), content) := by
  unfold shifted
  dsimp only
  rw [if_neg (by omega), if_neg (by omega), if_neg (by omega)]

theorem shifted_overflow (positive : 0 < count)
    (exceeds : ¬ (content.length + count ≤ maxInteger ∧ start + count ≤ maxInteger))
    (fill : Except BridgeError Datum) :
    (shifted content start count fill).2 = content ∧
      IsShiftError (shifted content start count fill).1 := by
  unfold shifted
  dsimp only
  rw [if_neg (by omega), if_neg (by omega), if_pos positive, if_pos (by omega)]
  exact ⟨rfl, _, rfl⟩

theorem shifted_inserting (positive : 0 < count)
    (room : content.length + count ≤ maxInteger ∧ start + count ≤ maxInteger)
    (fill : Except BridgeError Datum) :
    shifted content start count fill =
      match fill with
      | .ok d => (.ok (), fillFrom (shiftUp content start content.length count) start count d)
      | .error e => (.error e, shiftUp content start content.length count) := by
  unfold shifted
  dsimp only
  rw [if_neg (by omega), if_neg (by omega), if_pos positive, if_neg (by omega)]

end Inside

/-- What a shift makes of the items of a sequence. -/
def ShiftsItems (items : List Datum) (start count : Int) (d : Datum) (content : Table)
    (ended : Except BridgeError Unit) (content' : Table) : Prop :=
  if 1 ≤ start ∧ start ≤ items.length + 1 then
    (count < 0 → ended = .ok () ∧ content'.Lists
      (removed items (start - 1).toNat (min (-count) (items.length - start + 1)).toNat)) ∧
    (count = 0 → ended = .ok () ∧ content' = content) ∧
    (0 < count →
      if items.length + count ≤ maxInteger ∧ start + count ≤ maxInteger then
        ended = .ok () ∧ content'.Lists (inserted items (start - 1).toNat count.toNat d)
      else IsShiftError ended)
  else IsShiftError ended

theorem shifted_items (lists : content.Lists items) (full : ∀ item ∈ items, item ≠ .nil)
    (start count : Int) (d : Datum) :
    ShiftsItems items start count d content (shifted content start count (.ok d)).1
        (shifted content start count (.ok d)).2 ∧
      SameBesides content (shifted content start count (.ok d)).2 := by
  have length : content.length = items.length := lists.length full
  have short : (items.length : Int) ≤ maxInteger := lists.short
  unfold ShiftsItems
  by_cases inside : 1 ≤ start ∧ start ≤ items.length + 1
  · rw [if_pos inside]
    obtain ⟨first, last⟩ := inside
    have last' : start ≤ content.length + 1 := by rwa [length]
    rcases Int.lt_trichotomy count 0 with negative | rfl | positive
    · rw [shifted_removing first last' negative, length]
      refine ⟨⟨fun _ => ⟨rfl, ?_⟩, by omega, by omega⟩, ?_⟩
      · exact lists_shiftDown lists first (by omega) (by omega)
      · exact (get_shiftDown content first (by omega) short).2
    · rw [shifted_nothing first last']
      exact ⟨⟨by omega, fun _ => ⟨rfl, rfl⟩, by omega⟩, .refl content⟩
    · refine ⟨⟨by omega, by omega, fun _ => ?_⟩, ?_⟩
      all_goals by_cases room : items.length + count ≤ maxInteger ∧ start + count ≤ maxInteger
      · rw [if_pos room, shifted_inserting first last' positive (by rwa [length]), length]
        exact ⟨rfl, lists_fillFrom lists first positive last room.1 room.2 d⟩
      · rw [if_neg room]
        exact (shifted_overflow first last' positive (by rwa [length]) _).2
      · rw [shifted_inserting first last' positive (by rwa [length]), length]
        exact (get_shiftUp content first positive room.1).2.trans
          (get_fillFrom _ first (by omega) d).2
      · rw [(shifted_overflow first last' positive (by rwa [length]) _).1]
        exact .refl content
  · rw [if_neg inside]
    have outside : ¬ (1 ≤ start ∧ start ≤ content.length + 1) := by rwa [length]
    obtain ⟨same, failing⟩ := shifted_outside outside count (.ok d)
    exact ⟨failing, by rw [same]; exact .refl content⟩

end Outcome

section Program

variable {w w' : World} {r : Ref} {content : Table} {metatable : Option Ref}

/-- A second world has a table with other content, and all else as it was. -/
structure Refills (w : World) (r : Ref) (content : Table) (metatable : Option Ref) (w' : World) :
    Prop where
  there : w'.cell? r = some (.table content metatable)
  others : ∀ r', r' ≠ r → w'.cell? r' = w.cell? r'
  open_ : ∀ s, w'.isOpen s = w.isOpen s

theorem Refills.refl (found : w.cell? r = some (.table content metatable)) :
    Refills w r content metatable w :=
  ⟨found, fun _ _ => rfl, fun _ => rfl⟩

/-- The content of a table is replaced in one way. -/
theorem Refills.setContent (refills : Refills w r content metatable w') (content' : Table) :
    ∃ w₁, (setContent r content').straight w' = some ((), w₁) ∧
      Refills w r content' metatable w₁ := by
  have kept : w'.metatableAt r = metatable := by simp only [World.metatableAt, refills.there]
  refine ⟨w'.write r (.table content' metatable), ?_, ?_, fun r' other => ?_, fun s => ?_⟩
  · rw [← kept]
    rfl
  · rw [World.cell?_write, if_pos rfl, refills.there]
    rfl
  · rw [World.cell?_write, if_neg other, refills.others r' other]
  · rw [World.isOpen_write, refills.open_]

/-- What a program without requests comes to, and how it leaves a table. -/
def Leaves (a : Action Unit) (w : World) (r : Ref) (metatable : Option Ref)
    (after : Except BridgeError Unit × Table) : Prop :=
  ∃ w₁, (∀ result w', Ends a w result w' ↔ result = after.1.mapError .failed ∧ w' = w₁) ∧
    Refills w r after.2 metatable w₁

theorem Leaves.throw (found : w.cell? r = some (.table content metatable)) (e : BridgeError) :
    Leaves (.throw e) w r metatable (.error e, content) :=
  ⟨w, fun _ _ => Ends.throw_iff, .refl found⟩

theorem Leaves.pure (found : w.cell? r = some (.table content metatable)) :
    Leaves (pure ()) w r metatable (.ok (), content) :=
  ⟨w, fun _ _ => Ends.pure_iff, .refl found⟩

theorem Leaves.setContent (found : w.cell? r = some (.table content metatable))
    (content' : Table) : Leaves (setContent r content') w r metatable (.ok (), content') := by
  obtain ⟨w₁, goes, refills⟩ := (Refills.refl found).setContent content'
  exact ⟨w₁, fun _ _ => Ends.straight_iff goes, refills⟩

/-- What an operation of the bridge does it leaves behind. -/
theorem Leaves.operation {s : StateId} {body : Action Unit} {after : Except BridgeError Unit × Table}
    (inside : Leaves body ((Scope.operation s).enter w) r metatable after) :
    Leaves (.operation s body) w r metatable after := by
  obtain ⟨w₁, only, refills⟩ := inside
  have entered := World.Alike.enter (.operation s) w
  have left := World.Alike.exit (.operation s) [] w₁
  refine ⟨(Scope.operation s).exit [] w₁, fun result w' => ?_, ?_, fun r' other => ?_, fun t => ?_⟩
  · rw [Action.operation, Ends.within_iff]
    simp only [only]
    constructor
    · rintro ⟨_, ⟨rfl, rfl⟩, rfl⟩
      cases after.1 <;> exact ⟨rfl, rfl⟩
    · rintro ⟨rfl, rfl⟩
      refine ⟨w₁, ⟨rfl, rfl⟩, ?_⟩
      cases after.1 <;> rfl
  · rw [left.cell?, refills.there]
  · rw [left.cell?, refills.others r' other, entered.cell?]
  · rw [left.isOpen, refills.open_, entered.isOpen]

theorem leaves_shift (found : w.cell? r = some (.table content metatable)) (start count : Int64)
    (fill : Value) : Leaves (shift r start count fill) w r metatable
      (shifted content start.toInt count.toInt (fill.datum w r.owner)) := by
  have entered := World.Alike.enter (.operation r.owner) w
  have same : fill.datum w r.owner = fill.datum ((Scope.operation r.owner).enter w) r.owner :=
    (Value.datum_congr entered.isOpen).symm
  rw [same]
  refine .operation ?_
  rw [← entered.cell?] at found
  generalize (Scope.operation r.owner).enter w = w at found ⊢
  have holds : w.tableAt r = content := by simp only [World.tableAt, found]
  suffices body : Leaves _ w r metatable _ from by
    simpa only [Leaves, Ends.view_bind_iff, holds] using body
  unfold shifted
  dsimp only
  split
  · exact .throw found _
  split
  · exact .setContent found _
  split
  · split
    · exact .throw found _
    · obtain ⟨w₁, goes, moved⟩ := (Refills.refl found).setContent
        (shiftUp content start.toInt content.length count.toInt)
      have kept : fill.datum w₁ r.owner = fill.datum w r.owner := Value.datum_congr moved.open_
      cases made : fill.datum w r.owner with
      | error e =>
        refine ⟨w₁, fun result w' => ?_, moved⟩
        rw [Ends.straight_bind_iff goes, Ends.toDatum_bind_iff, kept, made]
        exact Iff.rfl
      | ok d =>
        obtain ⟨w₂, goes', filled⟩ := moved.setContent (fillFrom
          (shiftUp content start.toInt content.length count.toInt) start.toInt count.toInt d)
        refine ⟨w₂, fun result w' => ?_, filled⟩
        rw [Ends.straight_bind_iff goes, Ends.toDatum_bind_iff, kept, made]
        exact Ends.straight_iff goes'
  · exact .pure found

/-- A handle on a table leads to the shift of its content. -/
theorem leaves_shift_value {h : Handle} (kind : h.kind = .table)
    (found : w.cell? h.target = some (.table content metatable)) (start count : Int64)
    (fill : Value) : Leaves ((Value.handle h).shift start count fill) w h.target metatable
      (shifted content start.toInt count.toInt (fill.datum w h.state)) := by
  have isOpen : w.isOpen h.state := by
    obtain ⟨e, engine, -⟩ := Option.bind_eq_some_iff.mp found
    exact Option.isSome_iff_exists.mpr ⟨e, engine⟩
  obtain ⟨w₁, only, refills⟩ := leaves_shift found start count fill
  refine ⟨w₁, fun result w' => ?_, refills⟩
  refine Iff.trans ?_ (only result w')
  rw [Value.shift, Value.ofKind?, if_pos kind]
  exact Ends.straight_bind_iff (Action.straight_checkOpen isOpen)

/-- A program that leaves a table in one way does so however deeply requests may be nested. -/
theorem Leaves.runTo {a : Action Unit} {after : Except BridgeError Unit × Table}
    (leaves : Leaves a w r metatable after) :
    ∃ w₁, (∀ n, a.runTo n w = (after.1.mapError .failed, w₁)) ∧
      Refills w r after.2 metatable w₁ := by
  obtain ⟨w₁, only, refills⟩ := leaves
  refine ⟨w₁, fun n => ?_, refills⟩
  obtain ⟨same, end'⟩ := (only _ _).mp (Action.runs_of_runTo n a w)
  exact Prod.ext same end'

/-- No shift makes a request. -/
theorem silent_shift (v : Value) (start count : Int64) (fill : Value) :
    (v.shift start count fill).Silent := by
  have put (r : Ref) (content : Table) : (setContent r content).Silent := fun _ _ => trivial
  have convert (s : StateId) : (fill.toDatum s).Silent := fun made => by
    cases made <;> trivial
  unfold Value.shift
  split
  · rename_i h _
    refine .bind (fun made => by cases made <;> trivial) fun _ => .within ?_
    refine .bind (fun _ => trivial) fun content => ?_
    dsimp only
    split
    · trivial
    split
    · exact put _ _
    split
    · split
      · trivial
      · exact .bind (put _ _) fun _ => .bind (convert _) fun _ => put _ _
    · trivial
  · trivial

/-- Shifting a sequence in place: a negative count removes items, a positive one puts copies in, and
any place or count for which there is no room is an error. No sum overflows on the way, and nothing is
asked of the engine. -/
theorem shift_sequence {h : Handle} (kind : h.kind = .table)
    (found : w.cell? h.target = some (.table content metatable)) {items : List Datum}
    (lists : content.Lists items) (full : ∀ item ∈ items, item ≠ .nil) (start count : Int64)
    (fill : Value) {d : Datum} (own : fill.datum w h.state = .ok d) :
    ∃ ended content' w',
      (∀ n, ((Value.handle h).shift start count fill).runTo n w = (ended.mapError .failed, w')) ∧
      Refills w h.target content' metatable w' ∧
      ShiftsItems items start.toInt count.toInt d content ended content' ∧
      SameBesides content content' ∧
      (2 * items.length ≤ maxInteger →
        shifted? content start count (.ok d) = some (ended, content')) ∧
      ∀ moments outcome w₁, Runs ((Value.handle h).shift start count fill) w moments outcome w₁ →
        ∀ (β : Type) (r : Request β) (v : World), .request r v ∉ moments := by
  obtain ⟨w', ends, refills⟩ := (leaves_shift_value kind found start count fill).runTo
  rw [own] at ends refills
  obtain ⟨shifts, besides⟩ := shifted_items lists full start.toInt count.toInt d
  refine ⟨_, _, w', ends, refills, shifts, besides, fun small => ?_, fun _ _ _ runs β r v => ?_⟩
  · rw [shifted?_eq content (by rwa [lists.length full])]
  · exact (silent_shift _ start count fill).runs runs r v

/-- A world with a state in which a table has the items 10, 20 and 30. -/
def sequenceWorld : World :=
  let content : Table :=
    ((Table.set {} (.int 1) (.int 10)).set (.int 2) (.int 20)).set (.int 3) (.int 30)
  ((({} : World).openEngine {}).2.allocate 0 (.table content none)).2

theorem shift_sequence_inserting : ∃ content w',
    ((Value.handle ⟨.table, ⟨0, 2⟩, 0⟩).shift 2 2 (.int 7)).run sequenceWorld = (.ok (), w') ∧
      w'.cell? ⟨0, 2⟩ = some (.table content none) ∧
      content.Lists [.int 10, .int 7, .int 7, .int 20, .int 30] := by
  have lists := ((Table.lists_empty.push (.int 10) (by decide)).push (.int 20) (by decide)).push
    (.int 30) (by decide)
  obtain ⟨ended, content, w', ends, refills, shifts, -⟩ :=
    shift_sequence (w := sequenceWorld) (h := ⟨.table, ⟨0, 2⟩, 0⟩) rfl rfl lists (by decide) 2 2
      (.int 7) rfl
  rw [ShiftsItems, if_pos (by decide)] at shifts
  obtain ⟨-, -, inserting⟩ := shifts
  obtain ⟨rfl, inserted⟩ := (if_pos (c := _ ∧ _) (by decide)).mp (inserting (by decide))
  exact ⟨content, w', ends Action.nestingLimit, refills.there, inserted⟩

end Program

end TableOps

end ScriptBridge
