import ScriptBridge.Host.Samples
import ScriptBridge.Native.Operations
import ScriptBridge.Proofs.Computed
import ScriptBridge.Proofs.Failing
import ScriptBridge.Proofs.Tables

/-!
The choice among overloads: what can be an argument of a type is what converts to it, so that the
arguments of a call convert to the parameters of the member that has been chosen.
-/

namespace ScriptBridge

open Script (Datum Table)

/-- The type that a host value has. -/
def HostValue.type : HostValue → HostType
  | .void => .void
  | .bool _ => .bool
  | .int _ => .int
  | .double _ => .double
  | .text _ => .string
  | .object _ => .object
  | .native _ => .native
  | .list _ => .list
  | .variant _ => .variant

/-- A handle of an open state on what is there. A table has the integer keys from one to a number,
and what it holds there can be given to the host. -/
structure Handle.Carried (w : World) (h : Handle) : Prop where
  isOpen : w.isOpen h.state = true
  lists : h.kind = .table → ∃ content metatable items,
    w.cell? h.target = some (.table content metatable) ∧ content.Lists items ∧
      ∀ item ∈ items, item ≠ .nil ∧ item.asValue.isSome = true
  native : ∀ n, w.cell? h.target = some (.native n) → (w.native? n).isSome = true

/-- A value that can be handed to the host: a scalar, or a handle on what is there. -/
def Value.Carried (w : World) (v : Value) : Prop := ∀ h, v = .handle h → h.Carried w

/-- Whether a value converts to a type. -/
def HostType.Converts (n : Nat) (w : World) (t : HostType) (v : Value) : Prop :=
  ∃ host w', (t.fromValue v).runTo (n + 1) w = (.ok host, w')

/-- Whether a value could only convert by making a number of a string or a string of a number. -/
def HostType.Recasts (t : HostType) (v : Value) : Prop :=
  (v.typeName = "string" ∧ (t = .int ∨ t = .double)) ∨ (v.typeName = "number" ∧ t = .string)

namespace Value

variable {w w' : World} {v : Value}

theorem alike_of_ofDatum {d : Datum} {w w' : World} {v : Value}
    (goes : (ofDatum d).straight w = some (v, w')) : w.Alike w' := by
  cases d with
  | table r | function r | thread r | userdata r =>
    cases goes
    exact .anchor w r
  | failure => cases goes
  | _ =>
    cases goes
    exact .refl w

/-- A datum becomes its value, and is refused if it has none. -/
theorem runTo_ofDatum (d : Datum) (n : Nat) (w : World) :
    (∃ v w', (ofDatum d).runTo n w = (.ok v, w') ∧ d.asValue = some v.bare ∧ w.Alike w') ∨
      (ofDatum d).runTo n w = (.error (.failed .caughtFailure), w) ∧ d.asValue = none := by
  cases shows : d.asValue with
  | some shown =>
    obtain ⟨v, w', gives, same, -⟩ := straight_asValue shows w
    exact .inl ⟨v, w', Action.runTo_straight gives, congrArg some same.symm, alike_of_ofDatum gives⟩
  | none =>
    cases d with
    | failure => exact .inr ⟨Action.runTo_throw .., rfl⟩
    | _ => cases shows

theorem toOption_toInteger (v : Value) : v.toInteger.toOption = v.toInteger? := by
  unfold toInteger
  cases v.toInteger? <;> rfl

theorem toOption_toNumber (v : Value) : v.toNumber.toOption = v.toNumber? := by
  unfold toNumber
  cases v.toNumber? <;> rfl

theorem toOption_toText (v : Value) : v.toText.toOption = v.toText? := by
  unfold toText
  cases v.toText? <;> rfl

theorem ofKind?_eq_some_iff {kind : HandleKind} {h : Handle} :
    v.ofKind? kind = some h ↔ v = .handle h ∧ h.kind = kind := by
  cases v <;> simp [ofKind?]
  grind

theorem Carried.alike (carried : v.Carried w) (alike : w.Alike w') : v.Carried w' := by
  intro h same
  obtain ⟨isOpen, lists, native⟩ := carried h same
  refine ⟨(alike.isOpen h.state).trans isOpen, fun kind => ?_, fun n cell => ?_⟩
  · rw [alike.cell?]
    exact lists kind
  · rw [alike.native?]
    exact native n (by rwa [← alike.cell?])

theorem Carried.native (carried : v.Carried w) {n : NativeId} (found : w.nativeId? v = some n) :
    (w.native? n).isSome = true := by
  cases v with
  | handle h =>
    simp only [World.nativeId?] at found
    split at found
    · rename_i cell
      cases found
      exact (carried h rfl).native n cell
    · cases found
  | _ => cases found

end Value

/-- What a table holds is read as a value, if it is one. -/
theorem TableOps.runTo_get {w : World} {r : Ref} {content : Table} {metatable : Option Ref}
    (found : w.cell? r = some (.table content metatable)) {i : Int64}
    (present : content.get (.int i) ≠ .nil) (n : Nat) :
    (∃ v w', (TableOps.get r (.int i)).runTo (n + 1) w = (.ok v, w') ∧
        (content.get (.int i)).asValue = some v.bare ∧ w.Alike w') ∨
      ∃ w', (TableOps.get r (.int i)).runTo (n + 1) w = (.error (.failed .caughtFailure), w') ∧
        (content.get (.int i)).asValue = none ∧ w.Alike w' := by
  have entered := World.Alike.enter (.operation r.owner) w
  rw [← entered.cell?] at found
  have inside : (do
      let key ← (Value.int i).toDatum r.owner
      let data ← runTask r.owner (.index (.table r) key)
      Value.ofDatum (data.headD .nil)).runTo (n + 1) ((Scope.operation r.owner).enter w) =
        (Value.ofDatum (content.get (.int i))).runTo (n + 1) ((Scope.operation r.owner).enter w) := by
    rw [Action.runTo_bind_ok (Action.runTo_straight (Value.straight_toDatum rfl)),
      Action.runTo_bind_ok (Action.runTo_runTask (Script.straight_readPresent found present))]
    rfl
  rcases Value.runTo_ofDatum (content.get (.int i)) (n + 1) ((Scope.operation r.owner).enter w) with
    ⟨v, w₁, gives, shows, alike⟩ | ⟨refused, none⟩
  · exact .inl ⟨v, _, Action.runTo_operation_exit (inside.trans gives), shows,
      (entered.trans alike).trans (.exit ..)⟩
  · exact .inr ⟨_, Action.runTo_operation_exit (inside.trans refused), none, entered.trans (.exit ..)⟩

theorem World.exists_table_of_present {w : World} {r : Ref} {key : Datum}
    (present : (w.tableAt r).get key ≠ .nil) :
    ∃ metatable, w.cell? r = some (.table (w.tableAt r) metatable) := by
  unfold tableAt at present ⊢
  split at present
  · rename_i content metatable found
    exact ⟨metatable, found⟩
  · exact absurd rfl present

/-- A value that cannot be read as a list although it is a table: its state has been closed, or what
it holds at one of its positions is no value. -/
def Value.Unlistable (w : World) (v : Value) (e : BridgeError) : Prop :=
  ∃ h, v = .handle h ∧ h.kind = .table ∧
    ((w.isOpen h.state = false ∧ e = .stateClosed) ∨
      (∃ k < (w.tableAt h.target).length,
        ((w.tableAt h.target).get (.int (Int64.ofNat (k + 1)))).asValue = none) ∧
      e = .caughtFailure)

namespace HostType

variable {w w' : World} {v : Value} {n : Nat}

/-- The items of a table are read in their order, up to the first that is no value. -/
theorem runTo_items (r : Ref) (n : Nat) (w : World) :
    (∃ hosts w', (items r).runTo (n + 1) w = (.ok hosts, w') ∧
      List.Forall₂ (fun k host => ∃ v : Value, host = .variant v ∧
        ((w.tableAt r).get (.int (Int64.ofNat (k + 1)))).asValue = some v.bare)
          (List.range (w.tableAt r).length) hosts ∧ w.Alike w') ∨
    ∃ k < (w.tableAt r).length, ∃ w',
      (items r).runTo (n + 1) w = (.error (.failed .caughtFailure), w') ∧
      ((w.tableAt r).get (.int (Int64.ofNat (k + 1)))).asValue = none ∧ w.Alike w' := by
  have entered := World.Alike.enter (.operation r.owner) w
  have measured : (Action.view fun w => (w.tableAt r).length).runTo (n + 1)
      ((Scope.operation r.owner).enter w) =
        (.ok (w.tableAt r).length, (Scope.operation r.owner).enter w) := by
    rw [Action.runTo_straight (Action.straight_view _), entered.tableAt]
  have reads (k : Nat) (inside : k ∈ List.range (w.tableAt r).length) (v : World)
      (alike : w.Alike v) :
      (∃ host v', (do pure (HostValue.variant (← TableOps.get r (.int (Int64.ofNat (k + 1))))) :
          Action HostValue).runTo (n + 1) v = (.ok host, v') ∧ (∃ v : Value, host = .variant v ∧
            ((w.tableAt r).get (.int (Int64.ofNat (k + 1)))).asValue = some v.bare) ∧ w.Alike v') ∨
        ∃ e v', (do pure (HostValue.variant (← TableOps.get r (.int (Int64.ofNat (k + 1))))) :
          Action HostValue).runTo (n + 1) v = (.error e, v') ∧ (e = .failed .caughtFailure ∧
            ((w.tableAt r).get (.int (Int64.ofNat (k + 1)))).asValue = none) ∧ w.Alike v' := by
    have present := Table.get_of_lt_length (List.mem_range.mp inside)
    obtain ⟨metatable, found⟩ := World.exists_table_of_present present
    rcases TableOps.runTo_get ((alike.cell? r).trans found) present n with
      ⟨value, v', gets, shows, after⟩ | ⟨v', refused, none, after⟩
    · refine .inl ⟨.variant value, v', ?_, ⟨value, rfl, shows⟩, alike.trans after⟩
      rw [Action.runTo_bind_ok gets]
      rfl
    · exact .inr ⟨_, v', Action.runTo_bind_error refused, ⟨rfl, none⟩, alike.trans after⟩
  have left := entered.trans (.exit (.operation r.owner)
    (Scope.kept handles (.ok (w.tableAt r).length)) _)
  unfold items
  rw [Action.runTo_bind_ok (Action.runTo_operation_exit measured)]
  rcases Action.runTo_mapM reads left with all | ⟨k, inside, e, w', refused, ⟨rfl, none⟩, alike⟩
  · exact .inl all
  · exact .inr ⟨k, List.mem_range.mp inside, w', refused, none, alike⟩

section Listed

variable {r : Ref} {content : Table} {metatable : Option Ref} {held : List Datum}
  (found : w.cell? r = some (.table content metatable)) (lists : content.Lists held)
  (given : ∀ item ∈ held, item ≠ .nil ∧ item.asValue.isSome = true)
include found lists given

theorem length_listed : (w.tableAt r).length = held.length := by
  rw [Script.tableAt_eq found, lists.length fun item member => (given item member).1]

omit given in
theorem get_listed {k : Nat} (small : k < held.length) :
    (w.tableAt r).get (.int (Int64.ofNat (k + 1))) = held[k] := by
  have short := lists.short
  rw [Int64.toInt_maxValue] at short
  have place : (Int64.ofNat (k + 1)).toInt = k + 1 := Int64.toInt_ofNat_of_lt (by omega)
  rw [Script.tableAt_eq found, lists.get, place, Table.itemAt_succ, List.getElem?_eq_getElem small,
    Option.getD_some]

/-- The items of a table that lists what can be given to the host are given in their order. -/
theorem runTo_items_listed :
    ∃ hosts w', (items r).runTo (n + 1) w = (.ok hosts, w') ∧
      List.Forall₂ (fun item host => ∃ v : Value, host = .variant v ∧ item.asValue = some v.bare)
        held hosts ∧ w.Alike w' := by
  have length := length_listed found lists given
  rcases runTo_items r n w with ⟨hosts, w', all, each, alike⟩ | ⟨k, small, w', -, none, -⟩
  · obtain ⟨many, each⟩ := List.forall₂_iff_get.mp each
    rw [List.length_range, length] at many
    refine ⟨hosts, w', all, List.forall₂_iff_get.mpr ⟨many, fun k small small' => ?_⟩, alike⟩
    have shown := each k (by rwa [List.length_range, length]) small'
    simp only [List.get_eq_getElem, List.getElem_range] at shown
    rwa [get_listed found lists small] at shown
  · rw [length] at small
    have shown := (given held[k] (List.getElem_mem small)).2
    rw [← get_listed found lists small, none] at shown
    cases shown

end Listed

/-- A value that is carried can be read as a list if it is a table. -/
theorem not_unlistable (carried : v.Carried w) (e : BridgeError) : ¬ v.Unlistable w e := by
  rintro ⟨h, rfl, kind, ⟨closed, -⟩ | ⟨⟨k, small, none⟩, -⟩⟩
  · rw [(carried h rfl).isOpen] at closed
    cases closed
  · obtain ⟨content, metatable, held, found, lists, given⟩ := (carried h rfl).lists kind
    rw [length_listed found lists given] at small
    have shown := (given held[k] (List.getElem_mem small)).2
    rw [← get_listed found lists small, none] at shown
    cases shown

/-- Whatever can be an argument of a type converts to it, but for tables that cannot be read as
lists. -/
theorem converts_or_unlistable (t : HostType) (accepts : t.accepts w v = true) (n : Nat) :
    (∃ host w', (t.fromValue v).runTo (n + 1) w = (.ok host, w') ∧ host.type = t ∧ w.Alike w') ∨
      ∃ e w', (t.fromValue v).runTo (n + 1) w = (.error (.failed e), w') ∧
        (t = .list ∧ v.Unlistable w e) ∧ w.Alike w' := by
  have read {α : Type} {found : Except BridgeError α} {f : α → HostValue}
      (some : found.toOption.isSome = true) (typed : ∀ x, (f x).type = t) :
      ∃ host w', (do pure (f (← .ofExcept found)) : Action HostValue).runTo (n + 1) w =
        (.ok host, w') ∧ host.type = t ∧ w.Alike w' := by
    cases found with
    | ok x => exact ⟨f x, w, rfl, typed x, .refl w⟩
    | error e => cases some
  cases t with
  | void => cases accepts
  | bool =>
    cases v with
    | bool b => exact .inl ⟨.bool b, w, rfl, rfl, .refl w⟩
    | nil => exact .inl ⟨.bool false, w, rfl, rfl, .refl w⟩
    | _ => cases accepts
  | int => exact .inl (read (by rwa [Value.toOption_toInteger]) fun _ => rfl)
  | double => exact .inl (read (by rwa [Value.toOption_toNumber]) fun _ => rfl)
  | string => exact .inl (read (by rwa [Value.toOption_toText]) fun _ => rfl)
  | object =>
    cases null : v.isNil with
    | true =>
      refine .inl ⟨.object none, w, ?_, rfl, .refl w⟩
      simp only [fromValue, null, if_true]
      rfl
    | false =>
      simp only [HostType.accepts, null, Bool.false_or] at accepts
      obtain ⟨o, found⟩ := Option.isSome_iff_exists.mp accepts
      refine .inl ⟨.object (some o), w, ?_, rfl, .refl w⟩
      simp only [fromValue, null, Bool.false_eq_true, if_false]
      rw [Action.runTo_view_bind, found]
      rfl
  | native =>
    cases null : v.isNil with
    | true =>
      refine .inl ⟨.native none, w, ?_, rfl, .refl w⟩
      simp only [fromValue, null, if_true]
      rfl
    | false =>
      simp only [HostType.accepts, null, Bool.false_or] at accepts
      obtain ⟨native, there⟩ := Option.isSome_iff_exists.mp accepts
      obtain ⟨n, found, -⟩ := Option.bind_eq_some_iff.mp there
      refine .inl ⟨.native (some n), w, ?_, rfl, .refl w⟩
      simp only [fromValue, null, Bool.false_eq_true, if_false]
      rw [Action.runTo_view_bind, found]
      rfl
  | list =>
    obtain ⟨h, table⟩ := Option.isSome_iff_exists.mp (accepts : (v.ofKind? .table).isSome = true)
    obtain ⟨rfl, kind⟩ := Value.ofKind?_eq_some_iff.mp table
    simp only [fromValue, table]
    cases isOpen : w.isOpen h.state with
    | false =>
      refine .inr ⟨.stateClosed, w, Action.runTo_bind_error ?_,
        ⟨trivial, h, rfl, kind, .inl ⟨isOpen, rfl⟩⟩, .refl w⟩
      rw [Handle.checkOpen, Action.runTo_view_bind, Handle.ensureOpen, isOpen]
      exact Action.runTo_throw ..
    | true =>
      rw [Action.runTo_bind_ok (Action.runTo_straight (Action.straight_checkOpen isOpen))]
      rcases runTo_items h.target n w with
        ⟨hosts, w', all, -, alike⟩ | ⟨k, small, w', fails, none, alike⟩
      · refine .inl ⟨.list hosts, w', ?_, rfl, alike⟩
        rw [Action.runTo_bind_ok all]
        rfl
      · exact .inr ⟨_, w', Action.runTo_bind_error fails,
          ⟨trivial, h, rfl, kind, .inr ⟨⟨k, small, none⟩, rfl⟩⟩, alike⟩
  | variant => exact .inl ⟨.variant v, w, rfl, rfl, .refl w⟩

/-- Whatever can be an argument of a type converts to it. -/
theorem converts_of_accepts (t : HostType) (carried : v.Carried w) (accepts : t.accepts w v = true)
    (n : Nat) : ∃ host w', (t.fromValue v).runTo (n + 1) w = (.ok host, w') ∧ host.type = t := by
  rcases converts_or_unlistable t accepts n with
    ⟨host, w', done, type, -⟩ | ⟨e, w', -, ⟨-, not⟩, -⟩
  · exact ⟨host, w', done, type⟩
  · exact absurd not (not_unlistable carried e)

/-- What cannot be an argument of a type does not convert to it; only void converts without being a
type of arguments. -/
theorem accepts_of_converts {t : HostType} (carried : v.Carried w) (argument : t ≠ .void)
    (converts : t.Converts n w v) : t.accepts w v = true := by
  obtain ⟨host, w', done⟩ := converts
  have read {α : Type} {found : Except BridgeError α} {f : α → HostValue}
      (done : (do pure (f (← .ofExcept found)) : Action HostValue).runTo (n + 1) w =
        (.ok host, w')) : found.toOption.isSome = true := by
    cases found with
    | ok => rfl
    | error => cases done
  cases t with
  | void => exact absurd rfl argument
  | bool =>
    cases v with
    | bool | nil => rfl
    | _ => cases done
  | int =>
    rw [HostType.accepts, ← Value.toOption_toInteger]
    exact read done
  | double =>
    rw [HostType.accepts, ← Value.toOption_toNumber]
    exact read done
  | string =>
    rw [HostType.accepts, ← Value.toOption_toText]
    exact read done
  | object =>
    cases null : v.isNil with
    | true => simp [HostType.accepts, null]
    | false =>
      simp only [fromValue, null, Bool.false_eq_true, if_false] at done
      rw [Action.runTo_view_bind] at done
      cases found : w.hostObject? v with
      | some o => simp [HostType.accepts, found]
      | none =>
        rw [found] at done
        cases done
  | native =>
    cases null : v.isNil with
    | true => simp [HostType.accepts, null]
    | false =>
      simp only [fromValue, null, Bool.false_eq_true, if_false] at done
      rw [Action.runTo_view_bind] at done
      cases found : w.nativeId? v with
      | some n => simp [HostType.accepts, World.nativeOf?, found, carried.native found]
      | none =>
        rw [found] at done
        cases done
  | list =>
    cases table : v.ofKind? .table with
    | some h => simp [HostType.accepts, Value.isTable, table]
    | none =>
      simp only [fromValue, table] at done
      cases done
  | variant => rfl

theorem accepts_alike (alike : w.Alike w') (t : HostType) (v : Value) :
    t.accepts w' v = t.accepts w v := by
  cases t <;> simp [accepts, World.hostObject?, alike.nativeOf?]

theorem acceptsExactly_iff {t : HostType} :
    t.acceptsExactly w v = true ↔ t.accepts w v = true ∧ ¬ t.Recasts v := by
  cases v with
  | handle h =>
    have names : h.kind.name ≠ "string" ∧ h.kind.name ≠ "number" := by cases h.kind <;> decide
    cases t <;> simp [acceptsExactly, Recasts, Value.typeName, names]
  | _ => cases t <;> simp [acceptsExactly, Recasts, Value.typeName, HostType.accepts]

end HostType

/-- Whether a member takes the arguments of a call: there is one for each parameter, and it converts
to the type of the parameter, which is not void. -/
def Member.Takes (n : Nat) (w : World) (args : List Value) (m : Member) : Prop :=
  List.Forall₂ (fun t v => t ≠ .void ∧ t.Converts n w v) m.params args

/-- Whether a member takes the arguments of a call with no string made a number, and no number a
string. -/
def Member.TakesPlainly (n : Nat) (w : World) (args : List Value) (m : Member) : Prop :=
  List.Forall₂ (fun t v => (t ≠ .void ∧ t.Converts n w v) ∧ ¬ t.Recasts v) m.params args

theorem Member.TakesPlainly.takes {n : Nat} {w : World} {args : List Value} {m : Member}
    (takes : m.TakesPlainly n w args) : m.Takes n w args :=
  takes.imp fun _ _ both => both.1

/-- The first item of a list that has a property. -/
def IsFirst {α : Type} (p : α → Prop) (items : List α) (a : α) : Prop :=
  p a ∧ ∃ before after, items = before ++ a :: after ∧ ∀ b ∈ before, ¬ p b

theorem find?_eq_some_iff_isFirst {α : Type} {p : α → Prop} {f : α → Bool} {items : List α} {a : α}
    (tests : ∀ a, f a = true ↔ p a) : items.find? f = some a ↔ IsFirst p items a := by
  rw [List.find?_eq_some_iff_append, tests]
  refine and_congr_right fun _ => exists_congr fun before => exists_congr fun after =>
    and_congr_right fun _ => forall_congr' fun b => imp_congr_right fun _ => ?_
  rw [← tests b, Bool.not_eq_true', Bool.not_eq_true]

theorem fits_iff {check : HostType → Value → Bool} {R : HostType → Value → Prop}
    {params : List HostType} {args : List Value}
    (each : ∀ t, ∀ v ∈ args, check t v = true ↔ R t v) :
    fits check params args = true ↔ List.Forall₂ R params args := by
  induction params generalizing args with
  | nil => cases args <;> simp [fits]
  | cons t rest ih =>
    cases args with
    | nil => simp [fits]
    | cons v more =>
      rw [List.forall₂_cons, ← each t v (.head _), ← ih fun t v member => each t v (.tail _ member)]
      simp [fits, and_left_comm]

/-- An overload that has been selected is one of the candidates, and takes the arguments. -/
theorem fits_of_selectOverload {α : Type} {w : World} {params : α → List HostType}
    {candidates : List α} {args : List Value} {c : α}
    (selected : selectOverload w params candidates args = some c) :
    c ∈ candidates ∧ fits (HostType.accepts w) (params c) args = true := by
  unfold selectOverload at selected
  cases exact : candidates.find? fun c => fits (HostType.acceptsExactly w) (params c) args with
  | some own =>
    rw [exact] at selected
    cases selected
    have fitting := List.find?_some exact
    simp only [fits, Bool.and_eq_true, List.all_eq_true] at fitting ⊢
    exact ⟨List.mem_of_find?_eq_some exact, fitting.1,
      fun item inside => (HostType.acceptsExactly_iff.mp (fitting.2 item inside)).1⟩
  | none =>
    rw [exact] at selected
    exact ⟨List.mem_of_find?_eq_some selected, by simpa using List.find?_some selected⟩

/-- An overload that has been selected has as many parameters as there are arguments. -/
theorem arity_of_selectOverload {α : Type} {w : World} {params : α → List HostType}
    {candidates : List α} {args : List Value} {c : α}
    (selected : selectOverload w params candidates args = some c) :
    (params c).length = args.length := by
  have fitting := (fits_of_selectOverload selected).2
  simp only [fits, Bool.and_eq_true, beq_iff_eq] at fitting
  exact fitting.1

/-- Arguments that have been converted one by one have the types of the parameters. -/
theorem types_of_forall₂ {params : List HostType} {args : List Value} {hosts : List HostValue}
    (arity : params.length = args.length)
    (typed : List.Forall₂ (fun item host => host.type = Prod.fst item) (params.zip args) hosts) :
    hosts.map HostValue.type = params := by
  have same : List.Forall₂ Eq ((params.zip args).map Prod.fst) (hosts.map HostValue.type) := by
    rw [List.forall₂_map_left_iff, List.forall₂_map_right_iff]
    exact typed.imp fun _ _ => Eq.symm
  rw [List.forall₂_eq_eq_eq, List.map_fst_zip (Nat.le_of_eq arity)] at same
  exact same.symm

theorem Value.Unlistable.of_alike {w w' : World} {v : Value} {e : BridgeError}
    (alike : w.Alike w') (unlistable : v.Unlistable w' e) : v.Unlistable w e := by
  obtain ⟨h, same, kind, reason⟩ := unlistable
  rw [alike.isOpen, alike.tableAt] at reason
  exact ⟨h, same, kind, reason⟩

/-- Arguments that fit parameters convert to them, unless one of the arguments cannot be read as the
list that it is to be: a conversion makes anchors only, so the next argument is as it was. -/
theorem marshals_or_unlistable {w : World} {params : List HostType} {args : List Value}
    (fitting : fits (HostType.accepts w) params args = true) (n : Nat) :
    (∃ hosts w', (marshalArgs params args).runTo (n + 1) w = (.ok hosts, w') ∧
      hosts.map HostValue.type = params ∧ w.Alike w') ∨
    ∃ v e, (.list, v) ∈ params.zip args ∧ v.Unlistable w e ∧
      ∃ w', (marshalArgs params args).runTo (n + 1) w = (.error (.failed e), w') ∧ w.Alike w' := by
  simp only [fits, Bool.and_eq_true, beq_iff_eq, List.all_eq_true] at fitting
  obtain ⟨arity, each⟩ := fitting
  have steps (item : HostType × Value) (inside : item ∈ params.zip args) (v : World)
      (alike : w.Alike v) :
      (∃ host v', (item.1.fromValue item.2).runTo (n + 1) v = (.ok host, v') ∧
        host.type = item.1 ∧ w.Alike v') ∨
      ∃ e v', (item.1.fromValue item.2).runTo (n + 1) v = (.error e, v') ∧
        (∃ reason, e = .failed reason ∧ item.1 = .list ∧ item.2.Unlistable w reason) ∧
          w.Alike v' := by
    have accepts := (HostType.accepts_alike alike item.1 item.2).trans (each item inside)
    rcases HostType.converts_or_unlistable item.1 accepts n with
      ⟨host, v', done, type, after⟩ | ⟨e, v', fails, ⟨list, unlistable⟩, after⟩
    · exact .inl ⟨host, v', done, type, alike.trans after⟩
    · exact .inr ⟨_, v', fails, ⟨e, rfl, list, unlistable.of_alike alike⟩, alike.trans after⟩
  rcases Action.runTo_mapM steps (.refl w) with
    ⟨hosts, w', all, types, alike⟩ |
      ⟨⟨_, v⟩, inside, _, w', fails, ⟨e, rfl, rfl, unlistable⟩, alike⟩
  · exact .inl ⟨hosts, w', all, types_of_forall₂ arity types, alike⟩
  · exact .inr ⟨v, e, inside, unlistable, w', fails, alike⟩

section Choice

variable {w : World} {args : List Value} (carried : ∀ v ∈ args, v.Carried w) (n : Nat)
include carried

theorem accepts_iff {v : Value} (member : v ∈ args) (t : HostType) :
    t.accepts w v = true ↔ t ≠ .void ∧ t.Converts n w v := by
  constructor
  · intro accepts
    obtain ⟨host, w', done, -⟩ := HostType.converts_of_accepts t (carried v member) accepts n
    refine ⟨?_, host, w', done⟩
    rintro rfl
    cases accepts
  · rintro ⟨argument, converts⟩
    exact HostType.accepts_of_converts (carried v member) argument converts

theorem fits_accepts_iff (m : Member) :
    fits (HostType.accepts w) m.params args = true ↔ m.Takes n w args :=
  fits_iff fun t _ member => accepts_iff carried n member t

theorem fits_acceptsExactly_iff (m : Member) :
    fits (HostType.acceptsExactly w) m.params args = true ↔ m.TakesPlainly n w args := by
  refine fits_iff fun t v member => ?_
  rw [HostType.acceptsExactly_iff, accepts_iff carried n member t]

/-- The arguments of a call convert to the parameters of a member that takes them. -/
theorem marshals {m : Member} (takes : m.Takes n w args) :
    ∃ hosts w', (marshalArgs m.params args).runTo (n + 1) w = (.ok hosts, w') ∧
      hosts.map HostValue.type = m.params := by
  rcases marshals_or_unlistable ((fits_accepts_iff carried n m).mpr takes) n with
    ⟨hosts, w', all, types, -⟩ | ⟨v, e, inside, not, -⟩
  · exact ⟨hosts, w', all, types⟩
  · exact absurd not (HostType.not_unlistable (carried v (List.of_mem_zip inside).2) e)

/-- Among the members of a name, in the order of the class and its ancestors and of their
declarations, the one is chosen that takes the arguments plainly, or else the first that takes them.
There is one if any member takes them, and then the arguments convert to its parameters. -/
theorem overload_law (c : Class) (name : String) :
    ((selectOverload w Member.params (c.membersNamed name) args).isSome = true ↔
      ∃ d ∈ c.lineage, ∃ m ∈ d.members, m.name = name ∧ m.Takes n w args) ∧
    ∀ m, selectOverload w Member.params (c.membersNamed name) args = some m →
      (IsFirst (Member.TakesPlainly n w args)
          (c.lineage.flatMap fun d => d.members.filter (·.name == name)) m ∨
        (∀ d ∈ c.lineage, ∀ other ∈ d.members, other.name = name →
          ¬ other.TakesPlainly n w args) ∧
        IsFirst (Member.Takes n w args)
          (c.lineage.flatMap fun d => d.members.filter (·.name == name)) m) ∧
      ∃ hosts w', (marshalArgs m.params args).runTo (n + 1) w = (.ok hosts, w') ∧
        hosts.map HostValue.type = m.params := by
  have named : c.membersNamed name =
      c.lineage.flatMap fun d => d.members.filter (·.name == name) := by
    simp [Class.membersNamed, Class.members, List.filter_flatMap]
  have member (m : Member) :
      m ∈ c.membersNamed name ↔ ∃ d ∈ c.lineage, m ∈ d.members ∧ m.name = name := by
    simp [named, List.mem_flatMap]
  have plainly (m : Member) : (c.membersNamed name).find?
      (fun m => fits (HostType.acceptsExactly w) m.params args) = some m ↔
        IsFirst (Member.TakesPlainly n w args) (c.membersNamed name) m :=
    find?_eq_some_iff_isFirst (fits_acceptsExactly_iff carried n)
  have first (m : Member) : (c.membersNamed name).find?
      (fun m => fits (HostType.accepts w) m.params args) = some m ↔
        IsFirst (Member.Takes n w args) (c.membersNamed name) m :=
    find?_eq_some_iff_isFirst (fits_accepts_iff carried n)
  rw [← named]
  unfold selectOverload
  cases exact : (c.membersNamed name).find?
      fun m => fits (HostType.acceptsExactly w) m.params args with
  | some own =>
    have chosen := (plainly own).mp exact
    have takes := chosen.1.takes
    obtain ⟨d, inside, declared, called⟩ := (member own).mp (List.mem_of_find?_eq_some exact)
    refine ⟨iff_of_true rfl ⟨d, inside, own, declared, called, takes⟩, ?_⟩
    rintro m ⟨⟩
    exact ⟨.inl chosen, marshals carried n takes⟩
  | none =>
    rw [Option.orElse_none]
    constructor
    · rw [List.find?_isSome]
      constructor
      · rintro ⟨m, found, takes⟩
        obtain ⟨d, inside, declared, called⟩ := (member m).mp found
        exact ⟨d, inside, m, declared, called, (fits_accepts_iff carried n m).mp takes⟩
      · rintro ⟨d, inside, m, declared, called, takes⟩
        exact ⟨m, (member m).mpr ⟨d, inside, declared, called⟩,
          (fits_accepts_iff carried n m).mpr takes⟩
    · intro m found
      have chosen := (first m).mp found
      refine ⟨.inr ⟨fun d inside other declared called takes => ?_, chosen⟩,
        marshals carried n chosen.1⟩
      have listed := (member other).mpr ⟨d, inside, declared, called⟩
      exact List.find?_eq_none.mp exact other listed
        ((fits_acceptsExactly_iff carried n other).mpr takes)

end Choice

/-- A world with a state in which a table lists a number and a string. -/
def listWorld : World :=
  let content : Table := (Table.set {} (.int 1) (.int 10)).set (.int 2) (.str "a")
  ((({} : World).openEngine {}).2.allocate 0 (.table content none)).2

theorem overload_law_leaf : ∃ list pair hosts texts w' w'',
    selectOverload listWorld Member.params (Samples.leaf.membersNamed "pick")
      [.handle ⟨.table, ⟨0, 2⟩, 0⟩] = some list ∧
    (marshalArgs list.params [.handle ⟨.table, ⟨0, 2⟩, 0⟩]).run listWorld = (.ok hosts, w') ∧
    hosts.map HostValue.type = [.list] ∧
    selectOverload listWorld Member.params (Samples.leaf.membersNamed "pair")
      [.text "7", .text "8"] = some pair ∧
    (marshalArgs pair.params [.text "7", .text "8"]).run listWorld = (.ok texts, w'') ∧
    texts.map HostValue.type = [.string, .int] := by
  have lists := (Table.lists_empty.push (.int 10) (by decide)).push (.str "a") (by decide)
  have table : ∀ v ∈ [Value.handle ⟨.table, ⟨0, 2⟩, 0⟩], v.Carried listWorld := by
    rintro v (- | ⟨-, ⟨⟩⟩) h ⟨⟩
    refine ⟨rfl, fun _ => ⟨_, none, _, rfl, lists, by decide⟩, fun n cell => ?_⟩
    cases cell
  have texts : ∀ v ∈ [Value.text "7", .text "8"], v.Carried listWorld := by
    rintro v (- | ⟨-, - | ⟨-, ⟨⟩⟩⟩) h ⟨⟩
  obtain ⟨listed, paired⟩ :
      (selectOverload listWorld Member.params (Samples.leaf.membersNamed "pick")
        [.handle ⟨.table, ⟨0, 2⟩, 0⟩]).map Member.params = some [.list] ∧
      (selectOverload listWorld Member.params (Samples.leaf.membersNamed "pair")
        [.text "7", .text "8"]).map Member.params = some [.string, .int] := by
    decide +kernel
  obtain ⟨list, chosen, params⟩ := Option.map_eq_some_iff.mp listed
  obtain ⟨pair, picked, types⟩ := Option.map_eq_some_iff.mp paired
  obtain ⟨-, hosts, w', done, same⟩ :=
    (overload_law table (Action.nestingLimit - 1) Samples.leaf "pick").2 list chosen
  obtain ⟨-, others, w'', ended, alike⟩ :=
    (overload_law texts (Action.nestingLimit - 1) Samples.leaf "pair").2 pair picked
  exact ⟨list, pair, hosts, others, w', w'', chosen, done, same.trans params, picked, ended,
    alike.trans types⟩

end ScriptBridge
