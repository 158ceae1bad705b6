import ScriptBridge.Proofs.Mirrors
import ScriptBridge.Proofs.Straight

/-!
What goes into an engine and comes out of it: values that become data, data that become values, and
what an operation of the bridge makes of a task of its engine.
-/

namespace ScriptBridge

open Script (Datum Outcome)

namespace Value

/-- A value without the anchor that keeps its object alive. Scripts cannot tell values apart that are
the same without it. -/
def bare : Value → Value
  | .handle h => .handle { h with anchor := 0 }
  | v => v

/-- Whether a value may be used in a state. -/
def BelongsTo (s : StateId) (v : Value) : Prop := ∀ h, v = .handle h → h.state = s

theorem BelongsTo.of_bare {s : StateId} {v v' : Value} (belongs : v.BelongsTo s)
    (same : v'.bare = v.bare) : v'.BelongsTo s := by
  rintro h rfl
  cases v with
  | handle h' =>
    have target := congrArg (fun | .handle h => h.target | _ => h.target) same
    exact (congrArg Ref.owner target).trans (belongs h' rfl)
  | _ => cases same

theorem BelongsTo.datum {s : StateId} {v : Value} (belongs : v.BelongsTo s) {w : World}
    (isOpen : w.isOpen s) : ∃ d, v.datum w s = .ok d := by
  cases v with
  | handle h =>
    obtain rfl := belongs h rfl
    exact ⟨h.datum, by simp [Value.datum, isOpen]⟩
  | _ => exact ⟨_, rfl⟩

section Data

variable {w : World} {s : StateId}

theorem data_nil {data : List Datum} : [].mapM (Value.datum w s) = .ok data ↔ data = [] := by
  simp [Pure.pure, Except.pure, eq_comm]

/-- Values become data one by one. -/
theorem data_cons {v : Value} {rest : List Value} {data : List Datum} :
    (v :: rest).mapM (Value.datum w s) = .ok data ↔ ∃ d others,
      v.datum w s = .ok d ∧ rest.mapM (Value.datum w s) = .ok others ∧ data = d :: others := by
  rw [List.mapM_cons]
  cases v.datum w s with
  | error e => simp [Bind.bind, Except.bind]
  | ok d =>
    cases rest.mapM (Value.datum w s) with
    | error e => simp [Bind.bind, Except.bind]
    | ok others => simp [Bind.bind, Except.bind, Pure.pure, Except.pure, eq_comm]

theorem data_of_belongsTo {values : List Value} (belong : ∀ v ∈ values, v.BelongsTo s)
    (isOpen : w.isOpen s) : ∃ data, values.mapM (Value.datum w s) = .ok data := by
  induction values with
  | nil => exact ⟨[], rfl⟩
  | cons v rest ih =>
    obtain ⟨d, made⟩ := (belong v (by simp)).datum isOpen
    obtain ⟨data, makes⟩ := ih fun v member => belong v (by simp [member])
    exact ⟨d :: data, data_cons.mpr ⟨d, data, made, makes, rfl⟩⟩

theorem length_data {values : List Value} {data : List Datum}
    (made : values.mapM (Value.datum w s) = .ok data) : data.length = values.length := by
  induction values generalizing data with
  | nil =>
    rw [data_nil.mp made]
    rfl
  | cons v rest ih =>
    obtain ⟨d, others, -, makes, rfl⟩ := data_cons.mp made
    rw [List.length_cons, List.length_cons, ih makes]

/-- A value that has become a datum becomes the same value again. -/
theorem straight_ofDatum {v : Value} {d : Datum} (made : v.datum w s = .ok d) (w₁ : World) :
    ∃ v' w', (ofDatum d).straight w₁ = some (v', w') ∧ v'.bare = v.bare ∧
      w₁.Mirrors w' ∧ w₁.Alike w' := by
  cases v with
  | handle h =>
    simp only [datum] at made
    split at made
    · simp at made
    split at made
    · simp at made
    obtain rfl := Except.ok.inj made
    obtain ⟨kind, r, a⟩ := h
    refine ⟨.handle ⟨kind, r, (w₁.anchor r).1⟩, (w₁.anchor r).2, ?_, rfl, .anchor w₁ r, .anchor w₁ r⟩
    cases kind <;> rfl
  | text t =>
    obtain rfl := Except.ok.inj made
    refine ⟨.text t, w₁, ?_, rfl, .refl w₁, .refl w₁⟩
    simp [ofDatum, Datum.str]
  | _ =>
    obtain rfl := Except.ok.inj made
    exact ⟨_, w₁, rfl, rfl, .refl w₁, .refl w₁⟩

theorem straight_ofData {values : List Value} {data : List Datum}
    (made : values.mapM (Value.datum w s) = .ok data) (w₁ : World) :
    ∃ values' w', (ofData data).straight w₁ = some (values', w') ∧
      values'.map bare = values.map bare ∧ w₁.Mirrors w' ∧ w₁.Alike w' := by
  induction values generalizing data w₁ with
  | nil =>
    obtain rfl := data_nil.mp made
    exact ⟨[], w₁, rfl, rfl, .refl w₁, .refl w₁⟩
  | cons v rest ih =>
    obtain ⟨d, others, first, makes, rfl⟩ := data_cons.mp made
    obtain ⟨v', w₂, goes, same, mirrors, alike⟩ := straight_ofDatum first w₁
    obtain ⟨rest', w', onward, sames, mirrors', alike'⟩ := ih makes w₂
    refine ⟨v' :: rest', w', ?_, by simp [same, sames], mirrors.trans mirrors', alike.trans alike'⟩
    unfold ofData at onward ⊢
    simp [goes, onward]

theorem plain_ofData (data : List Datum) : (ofData data).Plain := by
  refine .mapM fun d => ?_
  cases d <;> first | trivial | exact fun _ => trivial

end Data

end Value

variable {s : StateId} {w w' : World}

/-- What an operation of the bridge makes of the outcome of a task of its engine. -/
def concluded (s : StateId) (outcome : Except Fault Outcome) (w : World) :
    Except Fault (List Value) × World :=
  match taskResult outcome with
  | .ok data =>
    let (result, w') := (Value.ofData data).run w
    (result, (Scope.operation s).exit (Scope.kept handles result) w')
  | .error e => (.error e, (Scope.operation s).exit [] w)

theorem runTask_concluded_iff {task : Task} {result : Except Fault (List Value)} :
    (∃ w₀, Ends (ScriptBridge.runTask s task >>= Value.ofData) w result w₀ ∧
      w' = (Scope.operation s).exit (Scope.kept handles result) w₀) ↔
    (result = .error (.failed BridgeError.tooDeep) ∧ w' = (Scope.operation s).exit [] w) ∨
      ∃ outcome w₂, Ends (Script.runTask s task) w outcome w₂ ∧
        (result, w') = concluded s outcome w₂ := by
  simp only [Ends.bind_iff, Ends.runTask_iff, (Value.plain_ofData _).ends_iff]
  constructor
  · rintro ⟨w₀, ⟨data, w₂, (⟨⟨⟩, -⟩ | ⟨outcome, ends, same⟩), rest⟩ |
      ⟨e, rfl, (⟨⟨⟩, rfl⟩ | ⟨outcome, ends, same⟩)⟩, rfl⟩
    · refine .inr ⟨outcome, w₂, ends, ?_⟩
      unfold concluded
      rw [← same]
      dsimp only
      rw [← rest]
    · exact .inl ⟨rfl, rfl⟩
    · refine .inr ⟨outcome, w₀, ends, ?_⟩
      unfold concluded
      rw [← same]
      rfl
  · rintro (⟨rfl, rfl⟩ | ⟨outcome, w₂, ends, same⟩)
    · exact ⟨w, .inr ⟨_, rfl, .inl ⟨rfl, rfl⟩⟩, rfl⟩
    · unfold concluded at same
      cases hands : taskResult outcome with
      | ok data =>
        rw [hands] at same
        obtain ⟨rfl, rfl⟩ := Prod.ext_iff.mp same
        exact ⟨_, .inl ⟨data, w₂, .inr ⟨outcome, ends, hands.symm⟩, rfl⟩, rfl⟩
      | error e =>
        rw [hands] at same
        obtain ⟨rfl, rfl⟩ := Prod.ext_iff.mp same
        exact ⟨w₂, .inr ⟨e, rfl, .inr ⟨outcome, ends, hands.symm⟩⟩, rfl⟩

end ScriptBridge
