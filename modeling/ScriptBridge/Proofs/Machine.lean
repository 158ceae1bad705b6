import Mathlib.Logic.Basic
import ScriptBridge.Proofs.Contract
import ScriptBridge.Script.Operation

/-!
Machines that hold data of one state only, and the operations of scripts, which keep that.
-/

namespace ScriptBridge

open Script (Callee Datum OwnedData)

def Script.Callee.refs : Callee → List Ref
  | .datum d => d.refs
  | .member _ => []

namespace World

variable {w : World} (isolated : w.Isolated) {s : StateId}
include isolated

theorem metatableOf_owned {d : Datum} (own : Owned s d.refs) {m : Ref}
    (found : w.metatableOf s d = some m) : m.owner = s := by
  cases d with
  | table r =>
    have same : r.owner = s := by simpa using own
    rw [isolated.metatableAt_owned found, same]
  | text b =>
    obtain ⟨e, engine, there⟩ := Option.bind_eq_some_iff.mp found
    exact isolated.stringMeta engine there
  | userdata r =>
    simp only [metatableOf] at found
    split at found
    · obtain ⟨e, engine, there⟩ := Option.bind_eq_some_iff.mp found
      exact isolated.fileMeta engine there
    · simp at found
  | _ => simp [metatableOf] at found

theorem metafield_owned {d : Datum} (own : Owned s d.refs) (name : String) :
    Owned s (w.metafield s d name).refs := by
  unfold metafield
  split
  · rename_i m found
    have owned := Script.Table.get_owned (isolated.tableAt_owned m) (.str name)
    rwa [metatableOf_owned isolated own found] at owned
  · simp

theorem metamethod_owned {d : Datum} (own : Owned s d.refs) {event : String} {f : Callee}
    (found : w.metamethod s d event = some f) : Owned s f.refs := by
  have owned := metafield_owned isolated own event
  unfold metamethod at found
  split at found
  · obtain ⟨entry, -, rfl⟩ := Option.map_eq_some_iff.mp found
    simp [Callee.refs]
  · split at found
    · simp at found
    · obtain rfl := Option.some.inj found
      exact owned

theorem progressOf_owned {r : Ref} (own : r.owner = s) {progress : Script.Progress}
    (found : w.progressOf r = some progress) : Owned s progress.refs := by
  obtain ⟨t, thread, rfl⟩ := Option.map_eq_some_iff.mp found
  unfold thread? at thread
  split at thread
  · rename_i t there
    obtain rfl := Option.some.inj thread
    have owned := isolated.cell_owned there
    rwa [own] at owned
  · simp at thread

theorem member_owned {d : Datum} (own : Owned s d.refs) (key : Datum) :
    Owned s (match d with
      | .table r => (w.tableAt r).get key
      | _ => .nil).refs := by
  cases d with
  | table r =>
    have same : r.owner = s := by simpa using own
    simpa [same] using Script.Table.get_owned (isolated.tableAt_owned r) key
  | _ => simp

end World

namespace Script

def Control.refs : Control → List Ref
  | .evaluate _ env | .execute _ env => env.refs
  | .give values | .returns values | .suspend values => refsOf values
  | .leave => []
  | .call f args _ => f.refs ++ refsOf args
  | .raise e _ => e.refs

/-- A machine of a state that holds references into the heap of that state only. -/
structure Machine.Within (s : StateId) (m : Machine) : Prop where
  state : m.state = s
  thread : m.thread.owner = s
  control : Owned s m.control.refs
  konts : ∀ k ∈ m.konts, Owned s k.refs
  callers : ∀ entry ∈ m.callers, entry.1.owner = s ∧ ∀ k ∈ entry.2, Owned s k.refs

namespace Machine.Within

variable {s : StateId} {m : Machine} (within : m.Within s)
include within

theorem with_control {c : Control} (own : Owned s c.refs) : { m with control := c }.Within s :=
  { within with control := own }

theorem with_konts {konts : List Kont} (own : ∀ k ∈ konts, Owned s k.refs) :
    { m with konts := konts }.Within s :=
  { within with konts := own }

theorem give {values : List Datum} (own : OwnedData s values) : (m.give values).Within s :=
  within.with_control (owned_refsOf.mpr own)

theorem evaluate (e : Expr) {env : Env} (own : Owned s env.refs) : (m.evaluate e env).Within s :=
  within.with_control own

theorem execute (body : List Stmt) {env : Env} (own : Owned s env.refs) :
    (m.execute body env).Within s :=
  within.with_control own

theorem call {f : Callee} {args : List Datum} (form : CallForm) (own : Owned s f.refs)
    (ownArgs : OwnedData s args) : (m.call f args form).Within s :=
  within.with_control (Owned.append_iff.mpr ⟨own, owned_refsOf.mpr ownArgs⟩)

theorem raise {e : Datum} (site : Option Site) (own : Owned s e.refs) : (m.raise e site).Within s :=
  within.with_control own

theorem fail (site : Option Site) (message : String) : (m.fail site message).Within s :=
  within.raise site (by simp)

theorem push {k : Kont} (own : Owned s k.refs) : (m.push k).Within s :=
  within.with_konts (by simpa using ⟨own, within.konts⟩)

theorem callMetamethod {f : Callee} (event : String) {args : List Datum} (site : Option Site)
    (own : Owned s f.refs) (ownArgs : OwnedData s args) :
    (m.callMetamethod f event args site).Within s :=
  within.call _ own ownArgs

end Machine.Within

open ScriptBridge.Action (Respects)

/-- A coroutine is changed without getting hold of anything new. -/
theorem respects_updateThread (r : Ref) {f : Thread → Thread} (turns : ∀ t : Thread, t.Turns (f t))
    (keeps : ∀ t : Thread, Owned r.owner t.progress.refs → Owned r.owner (f t).progress.refs) :
    (updateThread r f).Respects fun _ => True := by
  intro w sound
  refine Action.Meets.view_iff.mpr ?_
  split
  · rename_i t found
    have progress : w.progressOf r = some t.progress := by simp [World.progressOf, found]
    have own := keeps t (World.progressOf_owned sound.isolated rfl progress)
    have allowed : (Op.write r (.thread (f t))).Allowed w := ⟨own, .turned found (turns t)⟩
    exact ⟨allowed, allowed.permitted.sound sound, fun _ _ => trivial⟩
  · exact Action.gives_ok.mpr ⟨sound, trivial⟩

theorem respects_progressOf {s : StateId} {r : Ref} (own : r.owner = s) :
    (Action.view (·.progressOf r)).Respects
      fun found => ∀ progress, found = some progress → Owned s progress.refs :=
  .view fun _ ⟨isolated, _⟩ _ found => World.progressOf_owned isolated own found

namespace Machine

variable {s : StateId} {m : Machine}

theorem respects_metamethod (within : m.Within s) {d : Datum} (own : Owned s d.refs)
    (event : String) :
    (m.metamethod d event).Respects fun found => ∀ f, found = some f → Owned s f.refs := by
  refine .view fun w ⟨isolated, _⟩ f found => ?_
  rw [within.state] at found
  exact World.metamethod_owned isolated own found

theorem respects_metamethodOf (within : m.Within s) {left right : Datum}
    (ownLeft : Owned s left.refs) (ownRight : Owned s right.refs) (event : String) :
    (m.metamethodOf left right event).Respects fun found =>
      ∀ f, found = some f → Owned s f.refs := by
  refine .view fun w ⟨isolated, _⟩ f found => ?_
  rw [within.state] at found
  cases first : w.metamethod s left event with
  | some g =>
    simp only [first, Option.orElse_some, Option.some.injEq] at found
    exact World.metamethod_owned isolated ownLeft (first.trans (by rw [found]))
  | none =>
    simp only [first, Option.orElse_none] at found
    exact World.metamethod_owned isolated ownRight found

theorem respects_member {object : Datum} (own : Owned s object.refs) (key : Datum) :
    (Action.view fun w => match object with
      | .table r => (w.tableAt r).get key
      | _ => .nil).Respects fun raw => Owned s raw.refs :=
  .view fun _ ⟨isolated, _⟩ => World.member_owned isolated own key

theorem respects_allocate (within : m.Within s) {cell : Cell}
    (allowed : ∀ w, (Op.allocate s cell).Allowed w) :
    (m.allocate cell).Respects fun r => r.owner = s := by
  rw [← within.state] at allowed ⊢
  exact .perform (fun w _ => allowed w) fun _ _ => rfl

theorem respects_failOn (within : m.Within s) (operation : String) (d : Datum)
    (name : Option Described) (site : Option Site) :
    (m.failOn operation d name site).Respects (Within s) :=
  .of_view fun _ _ => .pure (within.fail _ _)

/-- Reading a member leads to data of the state. -/
theorem respects_indexTo (within : m.Within s) {key : Datum} (ownKey : Owned s key.refs)
    (site : Option Site) (n : Nat) {object : Datum} (own : Owned s object.refs)
    (name : Option Described) : (m.indexTo key site n object name).Respects (Within s) := by
  induction n generalizing object name with
  | zero => exact .pure (within.fail _ _)
  | succ n ih =>
    refine .bind (respects_member own key) fun raw ownRaw => ?_
    split
    · exact .pure (within.give (by simpa using ownRaw))
    · refine .bind (respects_metamethod within own "__index") fun found ownFound => ?_
      have ownArgs : OwnedData s [object, key] := by simp [own, ownKey]
      have single : (m.push .single).Within s := within.push (by simp [Kont.refs])
      split
      · exact .pure (within.give (by simp))
      · exact respects_failOn within _ _ _ _
      · exact .pure (single.callMetamethod _ _ (ownFound _ rfl) ownArgs)
      · exact .pure (single.callMetamethod _ _ (ownFound _ rfl) ownArgs)
      · exact ih (ownFound _ rfl) none

theorem respects_index (within : m.Within s) {object key : Datum} (own : Owned s object.refs)
    (ownKey : Owned s key.refs) (name : Option Described) (site : Option Site) :
    (m.index object key name site).Respects (Within s) :=
  respects_indexTo within ownKey site chainLimit own name

theorem respects_rawAssign (within : m.Within s) {r : Ref} (own : r.owner = s) {key value : Datum}
    (ownKey : Owned s key.refs) (ownValue : Owned s value.refs) (site : Option Site) :
    (m.rawAssign r key value site).Respects (Within s) := by
  have store : (rawAssign.store m r key value).Respects (Within s) := by
    refine .of_view fun w ⟨isolated, _⟩ => ?_
    refine .bind (.act fun _ _ => ?_) fun _ _ => .pure (within.give .nil)
    have content := Table.set_owned (isolated.tableAt_owned r) (own ▸ ownKey) (own ▸ ownValue)
    refine Owned.append_iff.mpr ⟨content, ?_⟩
    intro m member
    exact isolated.metatableAt_owned (Option.mem_toList.mp member)
  unfold rawAssign
  split
  · exact .pure (within.fail _ _)
  · split
    · exact .pure (within.fail _ _)
    · exact store
  · exact store

theorem respects_assignTo (within : m.Within s) {key value : Datum} (ownKey : Owned s key.refs)
    (ownValue : Owned s value.refs) (site : Option Site) (n : Nat) {object : Datum}
    (own : Owned s object.refs) (name : Option Described) :
    (m.assignTo key value site n object name).Respects (Within s) := by
  induction n generalizing object name with
  | zero => exact .pure (within.fail _ _)
  | succ n ih =>
    refine .bind (respects_member own key) fun raw _ => ?_
    have ownArgs : OwnedData s [object, key, value] := by simp [own, ownKey, ownValue]
    extract_lets rest
    have going (found : Option Callee) (ownFound : ∀ f, found = some f → Owned s f.refs) :
        (rest found).Respects (Within s) := by
      unfold rest
      split
      · exact respects_rawAssign within (by simpa using own) ownKey ownValue site
      · exact respects_failOn within _ _ _ _
      · exact .pure (within.callMetamethod _ _ (ownFound _ rfl) ownArgs)
      · exact .pure (within.callMetamethod _ _ (ownFound _ rfl) ownArgs)
      · exact ih (ownFound _ rfl) none
    split
    · exact .bind (respects_metamethod within own _) going
    · exact going none (by simp)

theorem respects_assign (within : m.Within s) {object key value : Datum}
    (own : Owned s object.refs) (ownKey : Owned s key.refs) (ownValue : Owned s value.refs)
    (name : Option Described) (site : Option Site) :
    (m.assign object key value name site).Respects (Within s) :=
  respects_assignTo within ownKey ownValue site chainLimit own name

/-- The data that numbers give rise to holds no references. -/
theorem number_owned {d : Datum} (number : d.isNumber) : Owned s d.refs := by
  cases d <;> simp [Datum.isNumber] at number ⊢

theorem isNumber_of_readHex {negative : Bool} {text : List Char} {d : Datum}
    (found : Numerals.readHex negative text = some d) : d.isNumber := by
  simp only [Numerals.readHex, Option.bind_eq_bind, Option.bind_eq_some_iff] at found
  obtain ⟨high, -, low, -, found⟩ := found
  split at found
  · simp at found
  · rcases ite_eq_iff.mp found with ⟨-, same⟩ | ⟨-, same⟩
    · obtain rfl := Option.some.inj same
      rfl
    · obtain ⟨e, -, same⟩ := Option.bind_eq_some_iff.mp same
      obtain rfl := Option.some.inj same
      rfl

theorem isNumber_of_asNumber {d n : Datum} (found : d.asNumber = some n) : n.isNumber := by
  cases d with
  | int i | float x =>
    obtain rfl := Option.some.inj found
    rfl
  | text b =>
    simp only [Datum.asNumber, Bytes.readNumber, Numerals.read] at found
    split at found
    · split at found
      · exact isNumber_of_readHex found
      · exact isNumber_of_readHex found
      · split at found
        · obtain rfl := Option.some.inj found
          rfl
        · obtain ⟨x, -, rfl⟩ := Option.map_eq_some_iff.mp found
          rfl
    · simp at found
  | _ => simp [Datum.asNumber] at found

theorem isNumber_of_compute {op : BinaryOp} {left right d : Datum}
    (computed : op.compute left right = some (.ok d)) : d.isNumber := by
  have floats {op : BinaryOp} {a b : Double} {d : Datum} (found : op.onFloats a b = some d) :
      d.isNumber := by
    cases op <;> simp [BinaryOp.onFloats] at found <;> subst found <;> rfl
  have bits {op : BinaryOp} {a b : Int64} {d : Datum} (found : op.onBits a b = some d) :
      d.isNumber := by
    cases op <;> simp [BinaryOp.onBits] at found <;> subst found <;> rfl
  have integers {op : BinaryOp} {a b : Int64} {d : Datum}
      (found : op.onIntegers a b = some (.ok d)) : d.isNumber := by
    cases op <;> simp [BinaryOp.onIntegers] at found
    all_goals first
      | (subst found; rfl)
      | (split at found
         · simp at found
         · obtain rfl := Except.ok.inj found
           rfl)
  unfold BinaryOp.compute at computed
  split at computed
  · simp only [Option.bind_eq_bind, Option.bind_eq_some_iff, Option.some.injEq, Except.ok.injEq]
      at computed
    obtain ⟨a, -, b, -, result, found, rfl⟩ := computed
    exact bits found
  · split at computed
    · rename_i a b _ _
      cases whole : op.onIntegers a b with
      | some result =>
        simp only [whole, Option.orElse_some, Option.some.injEq] at computed
        exact integers (whole.trans (by rw [computed]))
      | none =>
        simp only [whole, Option.orElse_none] at computed
        obtain ⟨result, there, same⟩ := Option.map_eq_some_iff.mp computed
        obtain rfl := Except.ok.inj same
        exact floats there
    · simp only [Option.bind_eq_bind, Option.bind_eq_some_iff, Option.some.injEq,
        Except.ok.injEq] at computed
      obtain ⟨a, -, b, -, result, found, rfl⟩ := computed
      exact floats found
    · simp at computed

theorem isNumber_of_negated {d n : Datum} (found : negated d = some n) : n.isNumber := by
  unfold negated at found
  split at found
  · obtain rfl := Option.some.inj found
    rfl
  · obtain rfl := Option.some.inj found
    rfl
  · simp at found

section Operators

variable (within : m.Within s) {left right : Operand} (site : Option Site)
include within

/-- A metamethod that is found for operands is called with them. -/
theorem within_callOperator {k : Kont} (own : Owned s k.refs) {f : Callee}
    (ownFound : Owned s f.refs) (event : String) {args : List Datum} (ownArgs : OwnedData s args) :
    ((m.push k).callMetamethod f event args site).Within s :=
  (within.push own).callMetamethod event site ownFound ownArgs

theorem within_giveResult {result : Except ArithmeticError Datum}
    (plain : ∀ d, result = .ok d → d.isNumber) : (m.giveResult site result).Within s := by
  cases result with
  | ok d => exact within.give (by simpa using number_owned (plain d rfl))
  | error e => exact within.fail _ _

theorem respects_failArithmetic (op : BinaryOp) (left right : Operand) :
    (m.failArithmetic op left right site).Respects (Within s) := by
  unfold failArithmetic
  dsimp only
  split
  · exact .pure (within.fail _ _)
  · exact respects_failOn within _ _ _ _

theorem respects_textArithmetic (op : BinaryOp) (ownLeft : Owned s left.value.refs)
    (ownRight : Owned s right.value.refs) :
    (m.textArithmetic op left right site).Respects (Within s) := by
  unfold textArithmetic
  split
  · rename_i result computed
    refine .pure (within_giveResult within site ?_)
    rintro d rfl
    exact isNumber_of_compute computed
  · extract_lets rest
    have going (found : Option Callee) (ownFound : ∀ f, found = some f → Owned s f.refs) :
        (rest found).Respects (Within s) := by
      unfold rest
      split
      · exact .pure (within_callOperator within site (by simp [Kont.refs]) (ownFound _ rfl) _
          (by simp [ownLeft, ownRight]))
      · exact .pure (within.fail _ _)
    split
    · exact going none (by simp)
    · exact .bind (respects_metamethod within ownRight _) going

theorem respects_arithmetic (op : BinaryOp) (ownLeft : Owned s left.value.refs)
    (ownRight : Owned s right.value.refs) :
    (m.arithmetic op left right site).Respects (Within s) := by
  unfold arithmetic
  extract_lets direct
  have number (d : Datum) (computed : direct = some (.ok d)) : d.isNumber := by
    unfold direct at computed
    split at computed
    · exact isNumber_of_compute computed
    · simp at computed
  clear_value direct
  split
  · refine .pure (within_giveResult within site ?_)
    rintro d rfl
    exact number d rfl
  · refine .of_view fun w _ => ?_
    have ownArgs : OwnedData s [left.value, right.value] := by simp [ownLeft, ownRight]
    extract_lets afterOwn
    have goingOwn (found : Option Callee) (ownFound : ∀ f, found = some f → Owned s f.refs) :
        (afterOwn found).Respects (Within s) := by
      unfold afterOwn
      extract_lets viaText afterOther
      have goingOther (other : Option Callee) (ownOther : ∀ f, other = some f → Owned s f.refs) :
          (afterOther other).Respects (Within s) := by
        unfold afterOther
        split
        · exact respects_textArithmetic within site op ownLeft ownRight
        · split
          · rename_i f chosen
            refine .pure (within_callOperator within site (by simp [Kont.refs]) ?_ _ ownArgs)
            cases found with
            | some g => exact ownFound f (by simpa using chosen)
            | none => exact ownOther f (by simpa using chosen)
          · exact respects_failArithmetic within site _ _ _
      split
      · exact goingOther none (by simp)
      · exact .bind (respects_metamethod within ownRight _) goingOther
    split
    · exact goingOwn none (by simp)
    · exact .bind (respects_metamethod within ownLeft _) goingOwn

theorem respects_concatenate (ownLeft : Owned s left.value.refs)
    (ownRight : Owned s right.value.refs) :
    (m.concatenate left right site).Respects (Within s) := by
  unfold concatenate
  split
  · exact .pure (within.give (by simp))
  · refine .bind (respects_metamethodOf within ownLeft ownRight _) fun found ownFound => ?_
    split
    · exact .pure (within_callOperator within site (by simp [Kont.refs]) (ownFound _ rfl) _
        (by simp [ownLeft, ownRight]))
    · exact respects_failOn within _ _ _ _

theorem respects_equal (negated : Bool) {left right : Datum} (ownLeft : Owned s left.refs)
    (ownRight : Owned s right.refs) : (m.equal negated left right site).Respects (Within s) := by
  unfold equal
  extract_lets mayDiffer rest
  have going (found : Option Callee) (ownFound : ∀ f, found = some f → Owned s f.refs) :
      (rest found).Respects (Within s) := by
    unfold rest
    split
    · exact .pure (within_callOperator within site (by simp [Kont.refs]) (ownFound _ rfl) _
        (by simp [ownLeft, ownRight]))
    · exact .pure (within.give (by simp))
  split
  · exact .bind (respects_metamethodOf within ownLeft ownRight _) going
  · exact going none (by simp)

theorem respects_compare (orEqual : Bool) {left right : Datum} (ownLeft : Owned s left.refs)
    (ownRight : Owned s right.refs) :
    (m.compare orEqual left right site).Respects (Within s) := by
  unfold compare
  split
  · exact .pure (within.give (by simp))
  · refine .bind (respects_metamethodOf within ownLeft ownRight _) fun found ownFound => ?_
    split
    · exact .pure (within_callOperator within site (by simp [Kont.refs]) (ownFound _ rfl) _
        (by simp [ownLeft, ownRight]))
    · exact .of_view fun _ _ => .of_view fun _ _ => .pure (within.fail _ _)

theorem respects_binary (op : BinaryOp) (ownLeft : Owned s left.value.refs)
    (ownRight : Owned s right.value.refs) : (m.binary op left right site).Respects (Within s) := by
  unfold binary
  split
  · exact respects_concatenate within site ownLeft ownRight
  · exact respects_equal within site _ ownLeft ownRight
  · exact respects_equal within site _ ownLeft ownRight
  · exact respects_compare within site _ ownLeft ownRight
  · exact respects_compare within site _ ownLeft ownRight
  · exact respects_compare within site _ ownRight ownLeft
  · exact respects_compare within site _ ownRight ownLeft
  · exact respects_arithmetic within site op ownLeft ownRight

theorem respects_negate {o : Operand} (own : Owned s o.value.refs) :
    (m.negate o site).Respects (Within s) := by
  unfold negate
  refine .of_view fun w _ => ?_
  split
  · rename_i d found
    have number : d.isNumber := by
      split at found
      · simp at found
      · exact isNumber_of_negated found
    exact .pure (within.give (by simpa using number_owned number))
  · extract_lets rest
    have going (found : Option Callee) (ownFound : ∀ f, found = some f → Owned s f.refs) :
        (rest found).Respects (Within s) := by
      unfold rest
      split
      · exact .pure (within_callOperator within site (by simp [Kont.refs]) (ownFound _ rfl) _
          (by simp [own]))
      · exact respects_failOn within _ _ _ _
    split
    · exact going none (by simp)
    · exact .bind (respects_metamethod within own _) going

theorem respects_complement {o : Operand} (own : Owned s o.value.refs) :
    (m.complement o site).Respects (Within s) := by
  unfold complement
  split
  · exact .pure (within.give (by simp))
  · refine .bind (respects_metamethod within own _) fun found ownFound => ?_
    split
    · exact .pure (within_callOperator within site (by simp [Kont.refs]) (ownFound _ rfl) _
        (by simp [own]))
    · exact respects_failArithmetic within site _ _ _

theorem respects_length {o : Operand} (own : Owned s o.value.refs) :
    (m.length o site).Respects (Within s) := by
  unfold length
  split
  · exact .pure (within.give (by simp))
  · refine .bind (respects_metamethod within own _) fun found ownFound => ?_
    split
    · exact .pure (within_callOperator within site (by simp [Kont.refs]) (ownFound _ rfl) _
        (by simp [own]))
    · exact .of_view fun _ _ => .pure (within.give (by simp))
    · exact respects_failOn within _ _ _ _

theorem respects_unary (op : UnaryOp) {o : Operand} (own : Owned s o.value.refs) :
    (m.unary op o site).Respects (Within s) := by
  cases op with
  | not => exact .pure (within.give (by simp))
  | neg => exact respects_negate within site own
  | len => exact respects_length within site own
  | bnot => exact respects_complement within site own

theorem respects_showDatum {d : Datum} (own : Owned s d.refs) :
    (m.showDatum d site).Respects (Within s) := by
  unfold showDatum
  split
  · exact .pure (within.give (by simp))
  · exact .pure (within.give (by simp))
  · exact .pure (within.give (by simp))
  · split
    · exact .pure (within.give (by simp))
    · refine .bind (respects_metamethod within own _) fun found ownFound => ?_
      split
      · exact .pure ((within.push (by simp [Kont.refs])).call _ (ownFound _ rfl) (by simp [own]))
      · exact .of_view fun _ _ => .pure (within.give (by simp))

end Operators

end Machine

end Script

end ScriptBridge
