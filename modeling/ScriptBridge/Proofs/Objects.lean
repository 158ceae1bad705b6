import ScriptBridge.Proofs.Alike
import ScriptBridge.Proofs.Passage

/-!
What changes of a world do to its host objects: none of them brings a destroyed object back, and no
number is given twice.
-/

namespace ScriptBridge

namespace World

theorem objects_retain (w : World) (s : StateId) (kept : List Nat) :
    (w.retain s kept).2.objects = w.objects := by
  unfold retain
  split <;> rfl

/-- What depends on host objects only, and is kept by the operations that touch them, is kept by
every permitted change. -/
theorem Change.keeps_objects {P : World → Prop}
    (frame : ∀ w w' : World, w'.objects = w.objects → P w → P w')
    (touching : ∀ {β : Type} (o : Op β) (w : World), o.Permitted w → o.Touches → P w →
      P (o.apply w).2)
    (w w' : World) (change : w.Change w') (holds : P w) : P w' := by
  cases change with
  | op permitted =>
    rename_i β o
    by_cases touches : o.Touches
    · exact touching o w permitted touches holds
    · exact frame w _ (Op.objects_apply w touches) holds
  | enter s => exact frame w _ (Alike.enter s w).objects holds
  | exit s result => exact frame w _ (Alike.exit s result w).objects holds
  | retain s kept => exact frame w _ (objects_retain w s kept) holds

theorem object?_modifyObject (w : World) (i o : ObjectId) (f : HostObject → HostObject) :
    (w.modifyObject i f).object? o = if i = o then (w.object? o).map f else w.object? o :=
  Store.get?_modify ..

theorem object?_newObject (w : World) (cls : Class) (name : String) (o : ObjectId) :
    (w.newObject cls name).2.object? o =
      if o = w.objects.next then some { cls := cls, name := name, values := cls.initialValues }
      else w.object? o :=
  Store.get?_add ..

theorem lt_next_of_object? {w : World} {o : ObjectId} {object : HostObject}
    (found : w.object? o = some object) : o < w.objects.next :=
  Store.lt_next_of_get? found

/-- An object that is alive is there. -/
theorem object_of_alive {w : World} {o : ObjectId} (alive : w.isDestroyed o = false) :
    ∃ object, w.object? o = some object ∧ object.destroyed = false := by
  unfold isDestroyed at alive
  cases found : w.object? o with
  | none => simp [found] at alive
  | some object => exact ⟨object, rfl, by simpa [found] using alive⟩

theorem isDestroyed_of_object? {w : World} {o : ObjectId} {object : HostObject}
    (found : w.object? o = some object) : w.isDestroyed o = object.destroyed := by
  simp [isDestroyed, found]

section Observations

variable {γ : Type} {g : HostObject → γ}

/-- A change of an object that leaves alone what one looks at. -/
theorem map_modifyObject {w : World} {i : ObjectId} {f : HostObject → HostObject}
    (keeps : ∀ object, g (f object) = g object) (o : ObjectId) :
    ((w.modifyObject i f).object? o).map g = (w.object? o).map g := by
  rw [object?_modifyObject]
  split
  · rw [Option.map_map]
    exact congrArg (Option.map · _) (funext keeps)
  · rfl

variable (steady : ∀ (object : HostObject) parent children,
  g { object with parent := parent, children := children } = g object)
include steady

theorem map_detach (w : World) (i o : ObjectId) :
    ((w.detach i).object? o).map g = (w.object? o).map g := by
  have leaving := map_modifyObject (w := w) (i := i)
    (f := fun object => { object with parent := none }) (fun object => steady object _ _) o
  unfold detach
  cases w.parentOf i with
  | none => exact leaving
  | some old => exact (map_modifyObject (fun object => steady object _ _) o).trans leaving

theorem map_attach (w : World) (i p o : ObjectId) :
    ((w.attach i p).object? o).map g = (w.object? o).map g :=
  (map_modifyObject (fun object => steady object _ _) o).trans
    (map_modifyObject (fun object => steady object _ _) o)

theorem map_setParent (w : World) (i : ObjectId) (parent : Option ObjectId) (o : ObjectId) :
    ((w.setParent i parent).2.object? o).map g = (w.object? o).map g := by
  unfold setParent
  split
  · rfl
  · cases parent with
    | none => exact map_detach steady w i o
    | some p => exact (map_attach steady _ i p o).trans (map_detach steady w i o)

theorem map_releaseChildren (w : World) (i o : ObjectId) :
    ((w.releaseChildren i).object? o).map g = (w.object? o).map g := by
  have each (children : List ObjectId) (w : World) : ((children.foldl (fun w child =>
      w.modifyObject child fun object => { object with parent := none }) w).object? o).map g =
        (w.object? o).map g := by
    induction children generalizing w with
    | nil => rfl
    | cons child rest ih =>
      rw [List.foldl_cons, ih]
      exact map_modifyObject (fun object => steady object _ _) o
  exact (map_modifyObject (fun object => steady object _ _) o).trans (each _ w)

end Observations

/-- A change of an object that leaves alone whether it is destroyed. -/
theorem isDestroyed_modifyObject {w : World} {i : ObjectId} {f : HostObject → HostObject}
    (keeps : ∀ object, (f object).destroyed = object.destroyed) (o : ObjectId) :
    (w.modifyObject i f).isDestroyed o = w.isDestroyed o :=
  congrArg (Option.getD · true) (map_modifyObject keeps o)

theorem isDestroyed_detach (w : World) (i o : ObjectId) :
    (w.detach i).isDestroyed o = w.isDestroyed o :=
  congrArg (Option.getD · true) (map_detach (fun _ _ _ => rfl) w i o)

theorem isDestroyed_setParent (w : World) (i : ObjectId) (parent : Option ObjectId) (o : ObjectId) :
    (w.setParent i parent).2.isDestroyed o = w.isDestroyed o :=
  congrArg (Option.getD · true) (map_setParent (fun _ _ _ => rfl) w i parent o)

theorem isDestroyed_releaseChildren (w : World) (i o : ObjectId) :
    (w.releaseChildren i).isDestroyed o = w.isDestroyed o :=
  congrArg (Option.getD · true) (map_releaseChildren (fun _ _ _ => rfl) w i o)

theorem isDestroyed_markDestroyed (w : World) (i o : ObjectId) :
    (w.markDestroyed i).isDestroyed o = (w.isDestroyed o || i == o) := by
  unfold isDestroyed markDestroyed
  rw [object?_modifyObject]
  split
  · rename_i same
    cases w.object? o with
    | none => simp
    | some object =>
      cases dead : object.destroyed <;> simp [dead, same]
  · rename_i other
    simp [other]

theorem isDestroyed_retire (w : World) (i o : ObjectId) :
    (w.retire i).2.isDestroyed o = (w.isDestroyed o || i == o) := by
  simp only [retire, isDestroyed_releaseChildren, isDestroyed_detach, isDestroyed_markDestroyed]

theorem objects_dropNative (w : World) (n : NativeId) :
    (w.dropNative n).2.objects = w.objects ∨
      ∃ o, (w.dropNative n).2.objects =
        (w.modifyObject o fun object => { object with owned := false }).objects := by
  unfold dropNative
  split
  · exact .inl rfl
  · split
    · exact .inl rfl
    · dsimp only
      split
      · rename_i o _ _
        exact .inr ⟨o, rfl⟩
      · exact .inl rfl

theorem isDestroyed_of_objects {w w' : World} (same : w'.objects = w.objects) (o : ObjectId) :
    w'.isDestroyed o = w.isDestroyed o := by
  simp [isDestroyed, object?, same]

theorem next_foldl_modifyObject (items : List ObjectId) (f : HostObject → HostObject) (w : World) :
    (items.foldl (fun w i => w.modifyObject i f) w).objects.next = w.objects.next := by
  induction items generalizing w with
  | nil => rfl
  | cons i rest ih => exact (ih _).trans (Store.next_modify ..)

theorem next_releaseChildren (w : World) (o : ObjectId) :
    (w.releaseChildren o).objects.next = w.objects.next :=
  (Store.next_modify ..).trans (next_foldl_modifyObject _ _ w)

theorem next_detach (w : World) (o : ObjectId) : (w.detach o).objects.next = w.objects.next := by
  unfold detach
  split <;> simp [modifyObject]

/-- An object that has been made. -/
def Made (o : ObjectId) (w : World) : Prop := o < w.objects.next

theorem Made.op {i : ObjectId} (o : Op β) (w : World) (touches : o.Touches) (made : Made i w) :
    Made i (o.apply w).2 := by
  have modified {j : ObjectId} {f : HostObject → HostObject} : Made i (w.modifyObject j f) := by
    simpa [Made, modifyObject] using made
  cases o with
  | newObject cls name => exact Nat.lt_of_lt_of_le made (by simp [Op.apply, newObject])
  | rename | store | connect | disconnect | disconnectId | newWrapper | markDestroyed =>
    exact modified
  | setParent j parent =>
    simp only [Op.apply, setParent]
    split
    · exact made
    · cases parent with
      | none => simpa [Made, next_detach] using made
      | some p => simpa [Made, attach, modifyObject, next_detach] using made
  | retire j =>
    simpa [Made, Op.apply, retire, next_releaseChildren, next_detach, markDestroyed, modifyObject]
      using made
  | dropNative n =>
    rcases objects_dropNative w n with same | ⟨j, same⟩
    · simpa [Made, Op.apply, same] using made
    · simpa [Made, Op.apply, same] using (modified (j := j))
  | reap =>
    simp only [Op.apply, reap]
    cases w.objects.ids.find? (!w.heldObjects.contains ·) with
    | none => exact made
    | some j => simpa [Made, next_releaseChildren] using made
  | _ => exact touches.elim

theorem Made.later {i : ObjectId} {w w' : World} (made : Made i w) (later : w.Later w') :
    Made i w' := by
  refine later.keeps (Change.keeps_objects (P := Made i) ?_ ?_) made
  · exact fun w w' same made => by simpa [Made, same] using made
  · exact fun o w _ touches made => made.op o w touches

/-- An object that has been made, and is destroyed or gone. -/
def Gone (o : ObjectId) (w : World) : Prop := Made o w ∧ w.isDestroyed o = true

theorem Gone.op {i : ObjectId} (o : Op β) (w : World) (touches : o.Touches) (gone : Gone i w) :
    Gone i (o.apply w).2 := by
  obtain ⟨made, dead⟩ := gone
  refine ⟨made.op o w touches, ?_⟩
  have modified {j : ObjectId} {f : HostObject → HostObject}
      (keeps : ∀ object, (f object).destroyed = object.destroyed) :
      (w.modifyObject j f).isDestroyed i = true :=
    (isDestroyed_modifyObject keeps i).trans dead
  cases o with
  | newObject cls name =>
    have other : i ≠ w.objects.next := Nat.ne_of_lt made
    unfold isDestroyed at dead ⊢
    rw [Op.apply, object?_newObject, if_neg other]
    exact dead
  | rename | store | connect | disconnect | disconnectId | newWrapper => exact modified fun _ => rfl
  | setParent j parent => exact (isDestroyed_setParent w j parent i).trans dead
  | retire j => simp [Op.apply, isDestroyed_retire, dead]
  | markDestroyed j => simp [Op.apply, isDestroyed_markDestroyed, dead]
  | dropNative n =>
    rcases objects_dropNative w n with same | ⟨j, same⟩
    · exact (isDestroyed_of_objects same i).trans dead
    · exact (isDestroyed_of_objects same i).trans (modified fun _ => rfl)
  | reap =>
    simp only [Op.apply, reap]
    cases w.objects.ids.find? (!w.heldObjects.contains ·) with
    | none => exact dead
    | some j =>
      have kept := (isDestroyed_releaseChildren w j i).trans dead
      simp only [isDestroyed, object?, Store.get?_erase] at kept ⊢
      split
      · rfl
      · exact kept
  | _ => exact touches.elim

/-- What is destroyed stays destroyed in all later worlds. -/
theorem Gone.later {i : ObjectId} {w w' : World} (gone : Gone i w) (later : w.Later w') :
    Gone i w' := by
  refine later.keeps (Change.keeps_objects (P := Gone i) ?_ ?_) gone
  · rintro w w' same ⟨made, dead⟩
    exact ⟨by simpa [Made, same] using made, (isDestroyed_of_objects same i).trans dead⟩
  · exact fun o w _ touches gone => gone.op o w touches

end World

end ScriptBridge
