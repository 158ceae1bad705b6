import ScriptBridge.Proofs.Exactness
import ScriptBridge.Value

/-!
Equality of values. Every value but a NaN means one thing, and two values are equal exactly when
they mean the same; an integer and a double mean the same when the double is that integer.
-/

namespace ScriptBridge

/-- What a value stands for. Integers and doubles are numbers alike. -/
inductive Meaning where
  | nothing
  | truth (b : Bool)
  | finite (q : ℚ)
  | infinite (negative : Bool)
  | text (s : String)
  | object (kind : HandleKind) (target : Ref)

namespace Double

def meaning? (d : Double) : Option Meaning :=
  if d.isNaN then none
  else if d.isFinite then some (.finite d.value) else some (.infinite d.isNegative)

theorem meaning?_ne {d : Double} {m : Meaning} (other : ∀ q, m ≠ .finite q)
    (other' : ∀ negative, m ≠ .infinite negative) : d.meaning? ≠ some m := by
  unfold meaning?
  grind

theorem magnitude_lt (d : Double) : d.magnitude < 2048 * 2 ^ 52 :=
  Nat.mod_lt _ (by decide)

theorem isFinite_iff (d : Double) : d.isFinite = true ↔ d.magnitude < 2047 * 2 ^ 52 := by
  unfold isFinite biasedExponent twoTo
  rw [decide_eq_true_iff, Nat.pow_eq]
  omega

/-- There are only two infinite numbers. -/
theorem magnitude_infinite {d : Double} (number : d.isNaN = false) (infinite : d.isFinite = false) :
    d.magnitude = 2047 * 2 ^ 52 := by
  have large : ¬ d.magnitude < 2047 * 2 ^ 52 := fun small => by
    simp [(isFinite_iff d).2 small] at infinite
  have bound := d.magnitude_lt
  simp only [isNaN, biasedExponent, fraction, twoTo, Nat.pow_eq, Bool.and_eq_false_iff,
    beq_eq_false_iff_ne, bne_eq_false_iff_eq] at number
  omega

theorem natAbs_rank (d : Double) : d.rank.natAbs = d.magnitude := by
  unfold rank
  split <;> simp

theorem rank_ne_of_finite {a b : Double} (finite : a.isFinite = true) (number : b.isNaN = false)
    (infinite : b.isFinite = false) : a.rank ≠ b.rank := by
  intro same
  have bound := (isFinite_iff a).1 finite
  rw [← natAbs_rank, same, natAbs_rank, magnitude_infinite number infinite] at bound
  exact lt_irrefl _ bound

theorem rank_eq_iff_of_infinite {a b : Double} (first : a.magnitude = 2047 * 2 ^ 52)
    (second : b.magnitude = 2047 * 2 ^ 52) : a.rank = b.rank ↔ a.isNegative = b.isNegative := by
  unfold rank
  rw [first, second]
  cases a.isNegative <;> cases b.isNegative <;> simp

/-- Doubles are equal as numbers when they mean the same. -/
theorem numEq_iff_meaning (a b : Double) :
    a.numEq b = true ↔ ∃ m, a.meaning? = some m ∧ b.meaning? = some m := by
  cases first : a.isNaN
  case true => simp [numEq, meaning?, first]
  cases second : b.isNaN
  case true => simp [numEq, meaning?, second]
  have ranks : a.numEq b = true ↔ a.rank = b.rank := by simp [numEq, first, second]
  rw [ranks]
  cases finite : a.isFinite <;> cases finite' : b.isFinite
  · have := rank_eq_iff_of_infinite (magnitude_infinite first finite) (magnitude_infinite second finite')
    simp [meaning?, first, second, finite, finite', this, eq_comm]
  · have := (rank_ne_of_finite finite' first finite).symm
    simp [meaning?, first, second, finite, finite', this]
  · have := rank_ne_of_finite finite second finite'
    simp [meaning?, first, second, finite, finite', this]
  · simp [meaning?, first, second, finite, finite', ← value_eq_iff, eq_comm]

end Double

namespace Value

/-- A NaN means nothing that equality could compare. -/
def meaning? : Value → Option Meaning
  | .nil => some .nothing
  | .bool b => some (.truth b)
  | .int i => some (.finite i.toInt)
  | .number d => d.meaning?
  | .text s => some (.text s)
  | .handle h => some (.object h.kind h.target)

theorem intFloatEq_iff (i : Int64) (d : Double) :
    intFloatEq i d = true ↔ d.isFinite = true ∧ d.value = i.toInt := by
  simp [intFloatEq, d.asInteger?_iff i]

theorem intFloatEq_iff_meaning (i : Int64) (d : Double) :
    intFloatEq i d = true ↔ d.meaning? = some (.finite i.toInt) := by
  rw [intFloatEq_iff]
  cases finite : d.isFinite
  · simp only [Double.meaning?, finite]
    cases d.isNaN <;> simp
  · simp [Double.meaning?, finite, Double.isNaN_of_isFinite finite]

theorem eq_symm (a b : Value) : a.eq b = b.eq a := by
  cases a <;> cases b <;>
    simp only [eq, Double.numEq, Handle.sameObject, Bool.beq_comm, Bool.and_comm]

theorem eq_iff_meaning (a b : Value) :
    a.eq b = true ↔ ∃ m, a.meaning? = some m ∧ b.meaning? = some m := by
  have both {x y : Meaning} : (∃ m, some x = some m ∧ some y = some m) ↔ x = y :=
    ⟨fun ⟨_, left, right⟩ => Option.some.inj (left.trans right.symm), fun same => ⟨x, rfl, same ▸ rfl⟩⟩
  have swapped (i : Int64) (d : Double) :
      intFloatEq i d = true ↔ ∃ m, d.meaning? = some m ∧ some (.finite i.toInt) = some m := by
    simp [intFloatEq_iff_meaning]
  cases a with
  | number d =>
    cases b with
    | number d' => exact Double.numEq_iff_meaning d d'
    | int i => exact swapped i d
    | _ => simp [eq, meaning?, Double.meaning?_ne]
  | int i =>
    cases b with
    | number d => exact (swapped i d).trans (exists_congr fun m => And.comm)
    | int j =>
      simp only [meaning?, both]
      simp [eq, Int64.toInt_inj]
    | _ => simp [eq, meaning?]
  | nil | bool | text | handle =>
    cases b with
    | number d => simp [eq, meaning?, Double.meaning?_ne]
    | _ =>
      simp only [meaning?, both]
      simp [eq, Handle.sameObject]

/-- Nothing but a NaN has no meaning. -/
theorem meaning?_isSome (v : Value) :
    (∃ m, v.meaning? = some m) ↔ ¬ ∃ d : Double, v = .number d ∧ d.isNaN = true := by
  cases v with
  | number d =>
    cases nan : d.isNaN <;> cases finite : d.isFinite <;>
      simp [meaning?, Double.meaning?, nan, finite]
  | _ => simp [meaning?]

/-- Equality of values is symmetric and transitive, and reflexive on all but a NaN. An integer and a
double are equal exactly when the double is finite and its value is that integer, and for just these
doubles the conversion to an integer gives that integer. -/
theorem eq_exact :
    (∀ a b : Value, a.eq b = true → b.eq a = true) ∧
    (∀ a b c : Value, a.eq b = true → b.eq c = true → a.eq c = true) ∧
    (∀ v : Value, v.eq v = true ↔ ¬ ∃ d : Double, v = .number d ∧ d.isNaN = true) ∧
    (∀ (i : Int64) (d : Double),
      (Value.int i).eq (.number d) = true ↔ d.isFinite = true ∧ d.value = i.toInt) ∧
    ∀ (d : Double) (i : Int64), d.asInteger? = some i ↔ d.isFinite = true ∧ d.value = i.toInt := by
  refine ⟨fun a b same => eq_symm a b ▸ same, fun a b c first second => ?_, fun v => ?_,
    intFloatEq_iff, Double.asInteger?_iff⟩
  · obtain ⟨m, left, middle⟩ := (eq_iff_meaning a b).1 first
    obtain ⟨m', middle', right⟩ := (eq_iff_meaning b c).1 second
    obtain rfl := Option.some.inj (middle.symm.trans middle')
    exact (eq_iff_meaning a c).2 ⟨m, left, right⟩
  · rw [eq_iff_meaning, ← meaning?_isSome]
    simp only [and_self]

/-- The integer `2 ^ 53 + 1` would be rounded to the double `2 ^ 53`, and yet is not equal to it. -/
theorem eq_exact_beyond_precision :
    (Value.number ⟨0x4340000000000000⟩).eq (.int 9007199254740992) = true ∧
      (Value.int 9007199254740992).eq (.number ⟨0x4340000000000000⟩) = true ∧
      ¬ (Value.int 9007199254740993).eq (.number ⟨0x4340000000000000⟩) = true := by
  obtain ⟨symmetric, transitive, -, -, -⟩ := eq_exact
  have first : (Value.int 9007199254740992).eq (.number ⟨0x4340000000000000⟩) = true := by decide
  refine ⟨symmetric _ _ first, first, fun second => ?_⟩
  have joined := transitive _ _ _ first (symmetric _ _ second)
  revert joined
  decide

end Value

end ScriptBridge
