import ScriptBridge.Proofs.Isolated

/-!
What the elementary operations leave alone: each touches the engines of a world, its host objects or
its native objects, or none of them.
-/

namespace ScriptBridge

namespace World

/-- A world that differs from another one in its host objects only. -/
def OnlyObjects (w w' : World) : Prop := w' = { w with objects := w'.objects }

namespace OnlyObjects

variable {w w₁ w' : World}

theorem engines (only : w.OnlyObjects w') : w'.engines = w.engines := by
  rw [only]

theorem natives (only : w.OnlyObjects w') : w'.natives = w.natives := by
  rw [only]

theorem typeTable (only : w.OnlyObjects w') : w'.typeTable = w.typeTable := by
  rw [only]

theorem level (only : w.OnlyObjects w') : w'.level = w.level := by
  rw [only]

theorem holdings (only : w.OnlyObjects w') : w'.holdings = w.holdings := by
  rw [only]

theorem trans (first : w.OnlyObjects w₁) (second : w₁.OnlyObjects w') : w.OnlyObjects w' := by
  unfold OnlyObjects at *
  rw [second, first]

theorem modifyObject (w : World) (o : ObjectId) (f : HostObject → HostObject) :
    w.OnlyObjects (w.modifyObject o f) := rfl

theorem detach (w : World) (o : ObjectId) : w.OnlyObjects (w.detach o) := by
  unfold World.detach
  cases w.parentOf o <;> rfl

theorem setParent (w : World) (o : ObjectId) (parent : Option ObjectId) :
    w.OnlyObjects (w.setParent o parent).2 := by
  unfold World.setParent
  split
  · rfl
  · cases parent with
    | none => exact detach w o
    | some p => exact (detach w o).trans rfl

theorem releaseChildren (w : World) (o : ObjectId) : w.OnlyObjects (w.releaseChildren o) := by
  have each (children : List ObjectId) (w : World) : w.OnlyObjects (children.foldl (fun w child =>
      w.modifyObject child fun object => { object with parent := none }) w) := by
    induction children generalizing w with
    | nil => rfl
    | cons child rest ih => exact (modifyObject w child _).trans (ih _)
  exact (each _ w).trans rfl

theorem retire (w : World) (o : ObjectId) : w.OnlyObjects (w.retire o).2 :=
  ((modifyObject w o _).trans (detach _ o)).trans (releaseChildren _ o)

theorem reap {natives : List NativeId} (reaped : w.reap = some (natives, w')) :
    w.OnlyObjects w' := by
  simp only [World.reap] at reaped
  split at reaped
  · simp at reaped
  · obtain ⟨-, rfl⟩ := Prod.mk.inj (Option.some.inj reaped)
    exact (releaseChildren w _).trans rfl

end OnlyObjects

/-- A world that differs from another one in its engines and in how many scopes are open only. -/
def OnlyEngines (w w' : World) : Prop := w' = { w with engines := w'.engines, level := w'.level }

namespace OnlyEngines

variable {w w₁ w' : World}

theorem objects (only : w.OnlyEngines w') : w'.objects = w.objects := by
  rw [only]

theorem natives (only : w.OnlyEngines w') : w'.natives = w.natives := by
  rw [only]

theorem typeTable (only : w.OnlyEngines w') : w'.typeTable = w.typeTable := by
  rw [only]

theorem holdings (only : w.OnlyEngines w') : w'.holdings = w.holdings := by
  rw [only]

theorem trans (first : w.OnlyEngines w₁) (second : w₁.OnlyEngines w') : w.OnlyEngines w' := by
  unfold OnlyEngines at *
  rw [second, first]

theorem modifyEngine (w : World) (s : StateId) (f : Engine → Engine) :
    w.OnlyEngines (w.modifyEngine s f) := rfl

theorem foldl (states : List StateId) (f : World → StateId → Engine → Engine) (w : World) :
    w.OnlyEngines (states.foldl (fun w s => w.modifyEngine s (f w s)) w) := by
  induction states generalizing w with
  | nil => rfl
  | cons s rest ih => exact (modifyEngine w s _).trans (ih _)

theorem closeScope (w : World) (result : List Handle) : w.OnlyEngines (w.closeScope result) :=
  (foldl w.openStates (fun w' s e => e.settle s w'.level result w.heldHandles) w).trans rfl

theorem enter (s : Scope) (w : World) : w.OnlyEngines (s.enter w) := by
  cases s <;> rfl

theorem exit (s : Scope) (result : List Handle) (w : World) : w.OnlyEngines (s.exit result w) := by
  cases s with
  | operation st => exact (closeScope w result).trans (modifyEngine _ st _)
  | values => exact closeScope w result

theorem retain (w : World) (s : StateId) (kept : List Nat) : w.OnlyEngines (w.retain s kept).2 := by
  unfold World.retain
  split <;> rfl

end OnlyEngines

theorem engines_dropNative (w : World) (n : NativeId) : (w.dropNative n).2.engines = w.engines := by
  unfold dropNative
  split
  · rfl
  · split
    · rfl
    · dsimp only
      split <;> rfl

end World

/-- The operations that touch engines. -/
def Op.TouchesEngines : Op β → Prop
  | .allocate .. | .write .. | .setRunning .. | .equip .. | .takePlace _ | .givePlace _ | .anchor _
  | .cacheWrapper .. | .openEngine _ | .closeEngine _ | .expire _ | .sweep _ => True
  | _ => False

theorem Op.engines_apply {o : Op β} (w : World) (untouched : ¬ o.TouchesEngines) :
    (o.apply w).2.engines = w.engines := by
  cases o with
  | registerFunction path f =>
    simp only [Op.apply, World.registerFunction]
    split <;> rfl
  | setParent o parent => exact (World.OnlyObjects.setParent w o parent).engines
  | retire o => exact (World.OnlyObjects.retire w o).engines
  | dropNative n => exact World.engines_dropNative w n
  | reap =>
    simp only [Op.apply]
    split
    · rename_i reaped
      exact (World.OnlyObjects.reap reaped).engines
    · rfl
  | allocate | write | setRunning | equip | takePlace | givePlace | anchor | cacheWrapper
  | openEngine | closeEngine | expire | sweep => exact absurd trivial untouched
  | _ => rfl

/-- The operations that touch host objects. -/
def Op.Touches : Op β → Prop
  | .newObject .. | .rename .. | .store .. | .setParent .. | .retire _ | .markDestroyed _
  | .connect .. | .disconnect .. | .disconnectId .. | .newWrapper .. | .dropNative _ | .reap => True
  | _ => False

theorem Op.objects_apply {o : Op β} (w : World) (untouched : ¬ o.Touches) :
    (o.apply w).2.objects = w.objects := by
  cases o with
  | takePlace s =>
    simp only [Op.apply, World.takePlace]
    split
    · split <;> rfl
    · rfl
  | registerFunction path f =>
    simp only [Op.apply, World.registerFunction]
    split <;> rfl
  | closeEngine s =>
    simp only [Op.apply, World.closeEngine]
    split <;> rfl
  | sweep s =>
    simp only [Op.apply, World.sweep, World.retain]
    split <;> rfl
  | newObject | rename | store | setParent | retire | markDestroyed | connect | disconnect
  | disconnectId | newWrapper | dropNative | reap => exact absurd trivial untouched
  | _ => rfl

/-- The operations that touch native objects. -/
def Op.TouchesNatives : Op β → Prop
  | .newNative _ | .newWrapper .. | .setCount .. | .dropNative _ => True
  | _ => False

theorem Op.natives_apply {o : Op β} (w : World) (untouched : ¬ o.TouchesNatives) :
    (o.apply w).2.natives = w.natives := by
  cases o with
  | takePlace s =>
    simp only [Op.apply, World.takePlace]
    split
    · split <;> rfl
    · rfl
  | registerFunction path f =>
    simp only [Op.apply, World.registerFunction]
    split <;> rfl
  | closeEngine s =>
    simp only [Op.apply, World.closeEngine]
    split <;> rfl
  | sweep s =>
    simp only [Op.apply, World.sweep, World.retain]
    split <;> rfl
  | setParent o parent => exact (World.OnlyObjects.setParent w o parent).natives
  | retire o => exact (World.OnlyObjects.retire w o).natives
  | reap =>
    simp only [Op.apply]
    split
    · rename_i reaped
      exact (World.OnlyObjects.reap reaped).natives
    · rfl
  | newNative | newWrapper | setCount | dropNative => exact absurd trivial untouched
  | _ => rfl

/-- Only the registration of a class touches the table of classes. -/
theorem Op.typeTable_apply {o : Op β} (w : World) (untouched : match o with
      | .registerType .. => False
      | _ => True) : (o.apply w).2.typeTable = w.typeTable := by
  cases o with
  | takePlace s =>
    simp only [Op.apply, World.takePlace]
    split
    · split <;> rfl
    · rfl
  | registerFunction path f =>
    simp only [Op.apply, World.registerFunction]
    split <;> rfl
  | closeEngine s =>
    simp only [Op.apply, World.closeEngine]
    split <;> rfl
  | sweep s => exact (World.OnlyEngines.retain w s _).typeTable
  | setParent o parent => exact (World.OnlyObjects.setParent w o parent).typeTable
  | retire o => exact (World.OnlyObjects.retire w o).typeTable
  | dropNative n =>
    simp only [Op.apply, World.dropNative]
    split
    · rfl
    · split
      · rfl
      · split <;> rfl
  | reap =>
    simp only [Op.apply]
    split
    · rename_i reaped
      exact (World.OnlyObjects.reap reaped).typeTable
    · rfl
  | registerType => exact untouched.elim
  | _ => rfl

/-- Native objects are counted on. -/
theorem Op.next_natives_apply (o : Op β) (w : World) :
    w.natives.next ≤ (o.apply w).2.natives.next := by
  by_cases touches : o.TouchesNatives
  · cases o with
    | newNative native => simp [Op.apply, World.newNative]
    | newWrapper o ownership => simp [Op.apply, World.newWrapper, World.newNative]
    | setCount n count => simp [Op.apply, World.setCount]
    | dropNative n =>
      simp only [Op.apply, World.dropNative]
      split
      · exact Nat.le_refl _
      · split
        · exact Nat.le_refl _
        · split <;> simp
    | _ => exact touches.elim
  · exact Nat.le_of_eq (by rw [Op.natives_apply w touches])

end ScriptBridge
