import ScriptBridge.Host.Samples
import ScriptBridge.Proofs.Disposal
import ScriptBridge.Proofs.Traces

/-!
Which userdata a state gives for a host object. All routes but one go by what the state remembers, so
that there is one userdata as long as it is not collected; a native object on its own gets a new
userdata each time, also when it is the wrapper of a host object.
-/

namespace ScriptBridge

namespace World

variable {w w₁ w₂ w' : World} {s : StateId} {o : ObjectId} {r r₁ r₂ : Ref}

/-- A state remembers a userdata for an object. -/
def Remembers (w : World) (s : StateId) (o : ObjectId) (r : Ref) : Prop :=
  ∃ n owning ownership, w.Wraps s o r n owning ownership

/-- No two userdata that a state has ever remembered for an object are there at once. -/
theorem Remembers.unique (first : w₁.Remembers s o r₁) (second : w₂.Remembers s o r₂)
    (later₁ : w₁.Later w) (later₂ : w₂.Later w) (present₁ : w.cell? r₁ ≠ none)
    (present₂ : w.cell? r₂ ≠ none) : r₁ = r₂ := by
  obtain ⟨_, _, _, wraps₁⟩ := first
  obtain ⟨_, _, _, wraps₂⟩ := second
  have found₁ := (wraps₁.later later₁ present₁).wrapperOf?
  have found₂ := (wraps₂.later later₂ present₂).wrapperOf?
  exact Option.some.inj (found₁.symm.trans found₂)

theorem Later.known (later : w.Later w') (known : s < w.engines.next) : s < w'.engines.next :=
  later.keeps (P := fun w => s < w.engines.next)
    (fun _ _ change known => (Carries.change known change).known) known

end World

variable {w w' : World} {s : StateId} {moments during : List Moment}

/-- A userdata for a native object is a new one. -/
theorem Runs.fresh {n : NativeId} {result : Except Fault Value} (sound : w.Sound)
    (isOpen : w.isOpen s) (runs : Runs (wrapNativeId s n) w moments (some result) w') :
    ∃ r a, result = .ok (.handle ⟨.userdata, r, a⟩) ∧ r.owner = s ∧ w.cell? r = none ∧
      w'.cell? r = some (.native n) ∧ w'.native? n = w.native? n := by
  obtain ⟨-, alike, a, rfl⟩ := ((meets_wrapNativeId s n sound).passage sound runs).2 _ rfl
  refine ⟨_, a, rfl, rfl, ?_, ?_, alike.native? n⟩
  · obtain ⟨e, engine⟩ := Option.isSome_iff_exists.mp isOpen
    simp [World.cell?, World.allocate, engine, Store.get?_of_next_le]
  · rw [alike.cell?]
    exact World.cell?_allocate isOpen _

/-- A value that has become a datum is that datum in the same world. -/
theorem Runs.of_toDatum {v : Value} {d : Script.Datum}
    (runs : Runs (v.toDatum s) w moments (some (.ok d)) w') : v.datum w s = .ok d ∧ w' = w := by
  obtain ⟨later, rfl, checked⟩ := Runs.of_perform runs
  obtain ⟨made, -, rfl⟩ := checked.of_ofExcept_ok
  exact ⟨made, rfl⟩

/-- A member is assigned by the engine of its table. -/
theorem Runs.of_set {r : Ref} {key value : Value}
    (runs : Runs (TableOps.set r key value) w moments (some (.ok ())) w') :
    ∃ k d u, key.datum u r.owner = .ok k ∧ value.datum u r.owner = .ok d ∧
      .request (.script r.owner (.assign (.table r) k d)) u ∈ moments := by
  obtain ⟨w₁, inside, -⟩ := runs.of_within
  obtain ⟨k, w₂, first, _, rfl, keyed, going⟩ := inside.of_bind
  obtain ⟨key_eq, rfl⟩ := keyed.of_toDatum
  obtain ⟨d, w₃, second, _, rfl, valued, assigning⟩ := going.of_bind
  obtain ⟨value_eq, rfl⟩ := valued.of_toDatum
  obtain ⟨_, task⟩ := assigning.of_discard
  obtain ⟨_, _, _, _, rfl, asked, -⟩ := task.first_of_bind
  obtain ⟨later, rfl⟩ := asked.of_ask
  exact ⟨k, d, _, key_eq, value_eq, by simp⟩

end ScriptBridge
