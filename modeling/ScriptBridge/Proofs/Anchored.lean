import ScriptBridge.Native.Traits
import ScriptBridge.Proofs.Anchors

/-!
Handles and their anchors: what the world holds is anchored, and stays so. A handle that belongs to a
program in progress lasts while the anchor's scope is open, one that the program around the bridge keeps
lasts as long as that is kept.
-/

namespace ScriptBridge

@[simp] theorem mem_handles_list [Holding α] {h : Handle} {items : List α} :
    h ∈ handles items ↔ ∃ item ∈ items, h ∈ handles item :=
  List.mem_flatMap

theorem mem_handles_map [Holding α] {h : Handle} {items : List β} {f : β → α} :
    h ∈ handles (items.map f) ↔ ∃ item ∈ items, h ∈ handles (f item) := by
  simp

theorem handles_subset [Holding α] {fewer items : List α} (sub : fewer ⊆ items) :
    handles fewer ⊆ handles items :=
  fun _ member =>
    have ⟨item, there, own⟩ := mem_handles_list.mp member
    mem_handles_list.mpr ⟨item, sub there, own⟩

theorem handles_getD [Holding α] {d : α} (nothing : handles d = []) (items : List α) (n : Nat) :
    handles (items.getD n d) ⊆ handles items := by
  intro h member
  rw [List.getD_eq_getElem?_getD] at member
  cases found : items[n]? with
  | none =>
    rw [found, Option.getD_none, nothing] at member
    cases member
  | some item =>
    rw [found] at member
    exact mem_handles_list.mpr ⟨item, List.mem_of_getElem? found, member⟩

@[simp] theorem handles_singleton [Holding α] (item : α) : handles [item] = handles item :=
  List.flatMap_singleton ..

section Descriptions

/-- The handles in what a member does. -/
def Behaviour.handles : Behaviour → List Handle
  | .const value => value.handles
  | _ => []

def Property.handles (p : Property) : List Handle :=
  p.getter.handles ++ p.setter.toList.flatMap Behaviour.handles ++
    p.initial.toList.flatMap HostValue.handles

def Member.handles (m : Member) : List Handle := m.body.toList.flatMap Behaviour.handles

/-- The handles in the description of a class. -/
def Class.handles (c : Class) : List Handle :=
  c.lineage.flatMap fun d => d.properties.flatMap Property.handles ++ d.members.flatMap Member.handles

/-- Whether there are no handles in a class. -/
def Class.HandleFree (c : Class) : Prop := c.handles = []

namespace Class.HandleFree

variable {c : Class} (plain : c.HandleFree)
include plain

theorem property {d : Declaration} (own : d ∈ c.lineage) {p : Property} (member : p ∈ d.properties) :
    p.handles = [] := by
  have declared := List.flatMap_eq_nil_iff.mp plain d own
  exact List.flatMap_eq_nil_iff.mp (List.append_eq_nil_iff.mp declared).1 p member

theorem property? {name : String} {p : Property} (found : c.property? name = some p) :
    p.handles = [] := by
  obtain ⟨d, own, there⟩ := List.exists_of_findSome?_eq_some found
  exact plain.property own (List.mem_of_find?_eq_some there)

theorem member {m : Member} (member : m ∈ c.members) : m.handles = [] := by
  obtain ⟨d, own, there⟩ := List.mem_flatMap.mp member
  have declared := List.flatMap_eq_nil_iff.mp plain d own
  exact List.flatMap_eq_nil_iff.mp (List.append_eq_nil_iff.mp declared).2 m there

end Class.HandleFree

theorem Member.handles_body {m : Member} (plain : m.handles = []) {body : Behaviour}
    (same : m.body = some body) : body.handles = [] := by
  simpa [Member.handles, same] using plain

namespace Property

variable {p : Property} (plain : p.handles = [])
include plain

theorem handles_getter : p.getter.handles = [] :=
  (List.append_eq_nil_iff.mp (List.append_eq_nil_iff.mp plain).1).1

theorem handles_setter {setter : Behaviour} (same : p.setter = some setter) :
    setter.handles = [] := by
  have none := (List.append_eq_nil_iff.mp (List.append_eq_nil_iff.mp plain).1).2
  simpa [same] using none

theorem handles_initial {value : HostValue} (same : p.initial = some value) :
    value.handles = [] := by
  simpa [same] using (List.append_eq_nil_iff.mp plain).2

end Property

theorem Contents.mem_put {contents : Contents} {name : String} {value : HostValue}
    {entry : String × HostValue} (member : entry ∈ contents.put name value) :
    entry ∈ contents ∨ entry.2 = value := by
  unfold Contents.put at member
  split at member
  · obtain ⟨⟨n, v⟩, there, rfl⟩ := List.mem_map.mp member
    dsimp only
    split
    · exact .inr rfl
    · exact .inl there
  · rcases List.mem_append.mp member with there | new
    · exact .inl there
    · exact .inr (congrArg (·.2) (List.mem_singleton.mp new))

theorem Class.HandleFree.initialValues {c : Class} (plain : c.HandleFree) :
    ∀ entry ∈ c.initialValues, entry.2.handles = [] := by
  unfold Class.initialValues
  refine List.foldlRecOn (motive := fun contents : Contents =>
    ∀ entry ∈ contents, entry.2.handles = []) _ _ (by simp) fun contents before p there => ?_
  obtain ⟨d, own, declared⟩ := List.mem_flatMap.mp there
  have nothing := plain.property (List.mem_reverse.mp own) declared
  intro entry member
  split at member
  · rename_i initial
    rcases Contents.mem_put member with old | new
    · exact before entry old
    · exact new ▸ Property.handles_initial nothing initial
  · exact before entry member

end Descriptions

/-- Whether there are no handles in a slot that receives a signal. -/
def Receiver.HandleFree : Receiver → Prop
  | .script .. => True
  | .slot _ _ body _ => body.handles = []

/-- Whether there are no handles in a class that a native object stands for. -/
def Native.HandleFree : Native → Prop
  | .typeObject cls _ => cls.HandleFree
  | _ => True

/-- Whether an object has a plain class and receivers, and all handles that it holds satisfy a
condition. -/
structure HostObject.HoldsOnly (S : Handle → Prop) (o : HostObject) : Prop where
  cls : o.cls.HandleFree
  values : ∀ entry ∈ o.values, ∀ h ∈ entry.2.handles, S h
  connections : ∀ c ∈ o.connections, c.receiver.HandleFree ∧ ∀ h ∈ handles c.receiver, S h

structure Native.HoldsOnly (S : Handle → Prop) (n : Native) : Prop where
  plain : n.HandleFree
  held : ∀ h ∈ handles n, S h

/-- Whether all handles that are held somewhere satisfy a condition, and there are none in
classes. -/
structure World.HoldsOnly (S : Handle → Prop) (w : World) : Prop where
  types : ∀ entry ∈ w.types, entry.cls.HandleFree
  objects : ∀ o object, w.object? o = some object → object.HoldsOnly S
  natives : ∀ n native, w.native? n = some native → native.HoldsOnly S
  holdings : ∀ h ∈ handles w.holdings, S h

/-- Whether the handles that an operation puts into the world satisfy a condition. -/
def Op.HoldsOnly (S : Handle → Prop) : Op β → Prop
  | .newObject cls _ | .registerType cls _ => cls.HandleFree
  | .store _ _ value => ∀ h ∈ value.handles, S h
  | .connect _ _ receiver => receiver.HandleFree ∧ ∀ h ∈ handles receiver, S h
  | .newNative native => native.HoldsOnly S
  | .holdValue _ value => ∀ h ∈ handles value, S h
  | .holdEntries _ entries => ∀ h ∈ handles entries, S h
  | _ => True

/-- Whether an operation changes nothing of what the program around the bridge keeps. -/
def Op.LeavesHoldings : Op β → Prop
  | .holdValue .. | .holdObject .. | .holdEntries .. | .letGo _ => False
  | _ => True

theorem Op.holdings_apply {o : Op β} (w : World) (leaves : o.LeavesHoldings) :
    (o.apply w).2.holdings = w.holdings := by
  cases o with
  | takePlace s =>
    simp only [Op.apply, World.takePlace]
    split
    · split <;> rfl
    · rfl
  | registerFunction path f =>
    simp only [Op.apply, World.registerFunction]
    split <;> rfl
  | closeEngine s =>
    simp only [Op.apply, World.closeEngine]
    split <;> rfl
  | sweep s => exact (World.OnlyEngines.retain w s _).holdings
  | setParent o parent => exact (World.OnlyObjects.setParent w o parent).holdings
  | retire o => exact (World.OnlyObjects.retire w o).holdings
  | dropNative n =>
    simp only [Op.apply, World.dropNative]
    split
    · rfl
    · split
      · rfl
      · split <;> rfl
  | reap =>
    simp only [Op.apply]
    split
    · rename_i reaped
      exact (World.OnlyObjects.reap reaped).holdings
    · rfl
  | holdValue | holdObject | holdEntries | letGo => exact leaves.elim
  | _ => rfl

/-- What becomes of an object that is given nothing to hold. -/
structure HostObject.Sheds (o o' : HostObject) : Prop where
  cls : o'.cls = o.cls
  values : o'.values = o.values
  connections : o'.connections ⊆ o.connections

theorem HostObject.Sheds.refl (o : HostObject) : o.Sheds o := ⟨rfl, rfl, fun _ => id⟩

theorem HostObject.Sheds.holdsOnly {S : Handle → Prop} {o o' : HostObject} (sheds : o.Sheds o')
    (holds : o.HoldsOnly S) : o'.HoldsOnly S :=
  ⟨sheds.cls ▸ holds.cls, sheds.values ▸ holds.values,
    fun c member => holds.connections c (sheds.connections member)⟩

/-- A world whose objects come from those of another one and have been given nothing to hold. -/
def World.Sheds (w w' : World) : Prop :=
  ∀ o object', w'.object? o = some object' → ∃ object, w.object? o = some object ∧
    object.Sheds object'

namespace World.Sheds

variable {w w₁ w' : World}

theorem refl (w : World) : w.Sheds w := fun _ object found => ⟨object, found, .refl object⟩

theorem trans (first : w.Sheds w₁) (second : w₁.Sheds w') : w.Sheds w' := by
  intro o object' found
  obtain ⟨between, there, later⟩ := second o object' found
  obtain ⟨object, before, earlier⟩ := first o between there
  exact ⟨object, before, later.cls.trans earlier.cls, later.values.trans earlier.values,
    fun _ member => earlier.connections (later.connections member)⟩

theorem of_objects (same : w'.objects = w.objects) : w.Sheds w' := by
  intro o object found
  rw [object?, same] at found
  exact ⟨object, found, .refl object⟩

theorem modifyObject (w : World) (o : ObjectId) {f : HostObject → HostObject}
    (sheds : ∀ object : HostObject, object.Sheds (f object)) : w.Sheds (w.modifyObject o f) := by
  intro p object' found
  change (w.objects.modify o f).get? p = _ at found
  rw [Store.get?_modify] at found
  split at found
  · obtain ⟨object, there, rfl⟩ := Option.map_eq_some_iff.mp found
    exact ⟨object, there, sheds object⟩
  · exact ⟨object', found, .refl object'⟩

/-- To change an object's links is to give it nothing to hold. -/
theorem relink (w : World) (o : ObjectId) (parent : HostObject → Option ObjectId)
    (children : HostObject → List ObjectId) : w.Sheds (w.modifyObject o fun object =>
      { object with parent := parent object, children := children object }) :=
  modifyObject w o fun _ => ⟨rfl, rfl, fun _ => id⟩

theorem detach (w : World) (o : ObjectId) : w.Sheds (w.detach o) := by
  have left := relink w o (fun _ => none) (·.children)
  unfold World.detach
  split
  · exact left
  · exact left.trans (relink _ _ (·.parent) (·.children.filter (· != o)))

theorem attach (w : World) (o parent : ObjectId) : w.Sheds (w.attach o parent) :=
  (relink w o (fun _ => some parent) (·.children)).trans
    (relink _ parent (·.parent) (·.children ++ [o]))

theorem setParent (w : World) (o : ObjectId) (parent : Option ObjectId) :
    w.Sheds (w.setParent o parent).2 := by
  unfold World.setParent
  split
  · exact refl w
  · cases parent with
    | none => exact detach w o
    | some p => exact (detach w o).trans (attach _ o p)

theorem releaseChildren (w : World) (o : ObjectId) : w.Sheds (w.releaseChildren o) := by
  have each (children : List ObjectId) (w : World) : w.Sheds (children.foldl (fun w child =>
      w.modifyObject child fun object => { object with parent := none }) w) := by
    induction children generalizing w with
    | nil => exact refl w
    | cons child rest ih => exact (relink w child (fun _ => none) (·.children)).trans (ih _)
  exact (each _ w).trans (relink _ o (·.parent) fun _ => [])

theorem markDestroyed (w : World) (o : ObjectId) : w.Sheds (w.markDestroyed o) := by
  refine modifyObject w o fun object => ?_
  split
  · exact .refl object
  · exact ⟨rfl, rfl, List.nil_subset _⟩

theorem retire (w : World) (o : ObjectId) : w.Sheds (w.retire o).2 :=
  ((markDestroyed w o).trans (detach _ o)).trans (releaseChildren _ o)

theorem reap {natives : List NativeId} (reaped : w.reap = some (natives, w')) : w.Sheds w' := by
  simp only [World.reap] at reaped
  split at reaped
  · cases reaped
  · rename_i o _
    obtain ⟨-, rfl⟩ := Prod.mk.inj (Option.some.inj reaped)
    refine (releaseChildren w o).trans fun p object found => ?_
    change (Store.erase ..).get? p = _ at found
    rw [Store.get?_erase] at found
    split at found
    · cases found
    · exact ⟨object, found, .refl object⟩

theorem dropNative (w : World) (n : NativeId) : w.Sheds (w.dropNative n).2 := by
  unfold World.dropNative
  split
  · exact refl w
  · split
    · exact refl w
    · dsimp only
      split
      · exact modifyObject { w with natives := w.natives.erase n } _ fun _ => ⟨rfl, rfl, fun _ => id⟩
      · exact of_objects rfl

/-- Apart from those that make an object, store a value or connect, all operations only take away
from objects. -/
theorem apply {o : Op β} (w : World) (gives : match o with
      | .newObject .. | .store .. | .connect .. => False
      | _ => True) : w.Sheds (o.apply w).2 := by
  by_cases touches : o.Touches
  · cases o with
    | newObject | store | connect => exact gives.elim
    | rename o name => exact modifyObject w o fun _ => ⟨rfl, rfl, fun _ => id⟩
    | setParent o parent => exact setParent w o parent
    | retire o => exact retire w o
    | markDestroyed o => exact markDestroyed w o
    | disconnect o signal key =>
      exact modifyObject w o fun _ => ⟨rfl, rfl, List.filter_subset_self _⟩
    | disconnectId o id => exact modifyObject w o fun _ => ⟨rfl, rfl, List.filter_subset_self _⟩
    | newWrapper o ownership => exact modifyObject w o fun _ => ⟨rfl, rfl, fun _ => id⟩
    | dropNative n => exact dropNative w n
    | reap =>
      simp only [Op.apply]
      split
      · rename_i reaped
        exact reap reaped
      · exact refl w
    | _ => exact touches.elim
  · exact of_objects (Op.objects_apply w touches)

end World.Sheds

namespace World

variable {w w₁ w' : World} {S : Handle → Prop} {h : Handle}

namespace HoldsOnly

theorem heldHandles (holds : w.HoldsOnly S) (held : h ∈ w.heldHandles) : S h := by
  simp only [World.heldHandles, List.mem_append, mem_handles_list, Store.mem_items] at held
  rcases held with (⟨object, ⟨o, found⟩, member⟩ | ⟨native, ⟨n, found⟩, member⟩) | own
  · have only := holds.objects o object found
    rcases List.mem_append.mp member with stored | connected
    · obtain ⟨entry, there, member⟩ := mem_handles_map.mp stored
      exact only.values entry there h member
    · obtain ⟨c, there, member⟩ := mem_handles_map.mp connected
      exact (only.connections c there).2 h member
  · exact (holds.natives n native found).held h member
  · exact holds.holdings h own

theorem mem_heldHandles_value {o : ObjectId} {object : HostObject} (found : w.object? o = some object)
    {entry : String × HostValue} (stored : entry ∈ object.values) (member : h ∈ entry.2.handles) :
    h ∈ w.heldHandles := by
  refine List.mem_append_left _ (List.mem_append_left _ ?_)
  refine mem_handles_list.mpr ⟨object, Store.mem_items.mpr ⟨o, found⟩, List.mem_append_left _ ?_⟩
  exact mem_handles_map.mpr ⟨entry, stored, member⟩

theorem mem_heldHandles_receiver {o : ObjectId} {object : HostObject}
    (found : w.object? o = some object) {c : Connection} (connected : c ∈ object.connections)
    (member : h ∈ handles c.receiver) : h ∈ w.heldHandles := by
  refine List.mem_append_left _ (List.mem_append_left _ ?_)
  refine mem_handles_list.mpr ⟨object, Store.mem_items.mpr ⟨o, found⟩, List.mem_append_right _ ?_⟩
  exact mem_handles_map.mpr ⟨c, connected, member⟩

theorem mem_heldHandles_native {n : NativeId} {native : Native} (found : w.native? n = some native)
    (member : h ∈ handles native) : h ∈ w.heldHandles := by
  refine List.mem_append_left _ (List.mem_append_right _ ?_)
  exact mem_handles_list.mpr ⟨native, Store.mem_items.mpr ⟨n, found⟩, member⟩

/-- A condition may be weakened for what is held. -/
theorem mono {S' : Handle → Prop} (holds : w.HoldsOnly S)
    (weaker : ∀ h ∈ w.heldHandles, S h → S' h) : w.HoldsOnly S' where
  types := holds.types
  objects o object found :=
    ⟨(holds.objects o object found).cls,
      fun entry stored h member => weaker h (mem_heldHandles_value found stored member)
        ((holds.objects o object found).values entry stored h member),
      fun c connected => ⟨((holds.objects o object found).connections c connected).1,
        fun h member => weaker h (mem_heldHandles_receiver found connected member)
          (((holds.objects o object found).connections c connected).2 h member)⟩⟩
  natives n native found :=
    ⟨(holds.natives n native found).plain,
      fun h member => weaker h (mem_heldHandles_native found member)
        ((holds.natives n native found).held h member)⟩
  holdings h own := weaker h (List.mem_append_right _ own) (holds.holdings h own)

end HoldsOnly

/-- What happens to engines changes nothing of what is held elsewhere. -/
theorem OnlyEngines.heldHandles (only : w.OnlyEngines w') : w'.heldHandles = w.heldHandles := by
  unfold World.heldHandles
  rw [only.objects, only.natives, only.holdings]

namespace HoldsOnly

theorem of_onlyEngines (holds : w.HoldsOnly S) (only : w.OnlyEngines w') : w'.HoldsOnly S where
  types := by
    rw [World.types, only.typeTable]
    exact holds.types
  objects := by
    simp only [object?, only.objects]
    exact holds.objects
  natives := by
    simp only [native?, only.natives]
    exact holds.natives
  holdings := by
    rw [only.holdings]
    exact holds.holdings

/-- The world holds nothing but what it has held before and what an operation puts into it. -/
theorem apply {o : Op β} (holds : w.HoldsOnly S) (own : o.HoldsOnly S) :
    (o.apply w).2.HoldsOnly S where
  types := by
    intro entry member
    unfold World.types at member
    cases o with
    | registerType cls creator =>
      change entry ∈ (w.typeTable.register cls creator).2.entries at member
      unfold TypeTable.register at member
      split at member
      · exact holds.types entry member
      · rcases List.mem_append.mp member with old | new
        · exact holds.types entry old
        · cases List.mem_singleton.mp new
          exact own
    | _ =>
      rw [Op.typeTable_apply w (by exact trivial)] at member
      exact holds.types entry member
  objects := by
    intro p object found
    cases o with
    | newObject cls name =>
      change (Store.add ..).get? p = _ at found
      rw [Store.get?_add] at found
      split at found
      · cases found
        refine ⟨own, fun entry member h there => ?_, by simp⟩
        simp [Class.HandleFree.initialValues own entry member] at there
      · exact holds.objects p object found
    | store o property value =>
      change (w.objects.modify o _).get? p = _ at found
      rw [Store.get?_modify] at found
      split at found
      · obtain ⟨before, there, rfl⟩ := Option.map_eq_some_iff.mp found
        have only := holds.objects p before there
        refine ⟨only.cls, fun entry member h there => ?_, only.connections⟩
        rcases Contents.mem_put member with old | new
        · exact only.values entry old h there
        · exact own h (new ▸ there)
      · exact holds.objects p object found
    | connect o signal receiver =>
      change (w.objects.modify o _).get? p = _ at found
      rw [Store.get?_modify] at found
      split at found
      · obtain ⟨before, there, rfl⟩ := Option.map_eq_some_iff.mp found
        have only := holds.objects p before there
        refine ⟨only.cls, only.values, fun c member => ?_⟩
        rcases List.mem_append.mp member with old | new
        · exact only.connections c old
        · cases List.mem_singleton.mp new
          exact own
      · exact holds.objects p object found
    | _ =>
      obtain ⟨before, there, sheds⟩ := Sheds.apply w trivial p object found
      exact sheds.holdsOnly (holds.objects p before there)
  natives := by
    intro n native found
    by_cases touches : o.TouchesNatives
    · cases o with
      | newNative made =>
        change (Store.add ..).get? n = _ at found
        rw [Store.get?_add] at found
        split at found
        · cases found
          exact own
        · exact holds.natives n native found
      | newWrapper o ownership =>
        change (Store.add ..).get? n = _ at found
        rw [Store.get?_add] at found
        split at found
        · cases found
          exact ⟨trivial, by simp [handles]⟩
        · exact holds.natives n native found
      | setCount m count =>
        change (w.natives.modify m _).get? n = _ at found
        rw [Store.get?_modify] at found
        split at found
        · obtain ⟨before, there, rfl⟩ := Option.map_eq_some_iff.mp found
          have only := holds.natives n before there
          split
          · exact ⟨trivial, by simp [handles]⟩
          · exact only
        · exact holds.natives n native found
      | dropNative m =>
        refine holds.natives n native ?_
        simp only [Op.apply, World.dropNative] at found
        split at found
        · exact found
        · split at found
          · exact found
          · have rest : (w.natives.erase m).get? n = some native := by
              split at found <;> exact found
            rw [Store.get?_erase] at rest
            split at rest
            · cases rest
            · exact rest
      | _ => exact touches.elim
    · rw [native?, Op.natives_apply w touches] at found
      exact holds.natives n native found
  holdings := by
    intro h member
    have before := holds.holdings h
    by_cases leaves : o.LeavesHoldings
    · exact before (Op.holdings_apply w leaves ▸ member)
    · cases o with
      | holdValue name value =>
        rcases List.mem_append.mp member with kept | entries
        · obtain ⟨entry, there, member⟩ := mem_handles_map.mp kept
          rcases List.mem_cons.mp there with rfl | old
          · exact own h member
          · exact before (List.mem_append_left _
              (mem_handles_map.mpr ⟨entry, (List.mem_filter.mp old).1, member⟩))
        · exact before (List.mem_append_right _ entries)
      | holdObject => exact before member
      | holdEntries name items =>
        rcases List.mem_append.mp member with values | kept
        · exact before (List.mem_append_left _ values)
        · obtain ⟨entry, there, member⟩ := mem_handles_map.mp kept
          rcases List.mem_cons.mp there with rfl | old
          · exact own h member
          · exact before (List.mem_append_right _
              (mem_handles_map.mpr ⟨entry, (List.mem_filter.mp old).1, member⟩))
      | letGo name =>
        rcases List.mem_append.mp member with kept | kept
        · obtain ⟨entry, there, member⟩ := mem_handles_map.mp kept
          exact before (List.mem_append_left _
            (mem_handles_map.mpr ⟨entry, (List.mem_filter.mp there).1, member⟩))
        · obtain ⟨entry, there, member⟩ := mem_handles_map.mp kept
          exact before (List.mem_append_right _
            (mem_handles_map.mpr ⟨entry, (List.mem_filter.mp there).1, member⟩))
      | _ => exact absurd trivial leaves

end HoldsOnly

/-- Whether a handle has its anchor, unless its state is closed. -/
def Backs (w : World) (h : Handle) : Prop :=
  h.state < w.engines.next ∧
    (w.isOpen h.state → ∃ a ∈ w.anchorsOf h.state, a.id = h.anchor)

/-- Whether a handle will have its anchor as long as the scopes stay open and what the program around
the bridge keeps stays the same. -/
def Lasts (w : World) (h : Handle) : Prop :=
  h.state < w.engines.next ∧ (w.isOpen h.state →
    h ∈ handles w.holdings ∨ ∃ a ∈ w.anchorsOf h.state, a.id = h.anchor ∧ a.scope.isSome)

/-- Whether some handles have their anchors. -/
def Backing (w : World) (hs : List Handle) : Prop := ∀ h ∈ hs, w.Backs h

/-- Whether some handles last. -/
def Lasting (w : World) (hs : List Handle) : Prop := ∀ h ∈ hs, w.Lasts h

/-- Whether the books are kept and all that is held is anchored. -/
structure Anchored (w : World) : Prop where
  booked : w.Booked
  held : w.HoldsOnly w.Backs

theorem anchored_empty : ({} : World).Anchored where
  booked s e found := by simp [engine?] at found
  held :=
    { types := by simp [World.types]
      objects := by simp [object?]
      natives := by simp [native?]
      holdings := by simp [handles] }

theorem Anchored.backs (anchored : w.Anchored) (held : h ∈ w.heldHandles) : w.Backs h :=
  anchored.held.heldHandles held

theorem Lasts.backs (lasts : w.Lasts h) (anchored : w.Anchored) : w.Backs h := by
  refine ⟨lasts.1, fun isOpen => ?_⟩
  rcases lasts.2 isOpen with kept | ⟨a, there, on, -⟩
  · exact (anchored.backs (List.mem_append_right _ kept)).2 isOpen
  · exact ⟨a, there, on⟩

theorem Lasting.backing {hs : List Handle} (lasting : w.Lasting hs) (anchored : w.Anchored) :
    w.Backing hs :=
  fun h member => (lasting h member).backs anchored

theorem Anchored.lasts_holdings (anchored : w.Anchored) (kept : h ∈ handles w.holdings) :
    w.Lasts h :=
  ⟨(anchored.backs (List.mem_append_right _ kept)).1, fun _ => .inl kept⟩

/-- What lasts, lasts through a program that has ended. -/
theorem Lasts.onward (lasts : w.Lasts h) (onward : w.Onward w') (same : w'.holdings = w.holdings) :
    w'.Lasts h := by
  refine ⟨Nat.lt_of_lt_of_le lasts.1 onward.next, fun isOpen => ?_⟩
  rcases lasts.2 (onward.opened _ lasts.1 isOpen) with kept | ⟨a, there, on, scope⟩
  · exact .inl (same ▸ kept)
  · exact .inr ⟨a, onward.kept _ isOpen a there scope, on, scope⟩

theorem Lasts.enter (lasts : w.Lasts h) (sc : Scope) : (sc.enter w).Lasts h := by
  unfold Lasts
  rw [next_enter, isOpen_enter, anchorsOf_enter, (OnlyEngines.enter sc w).holdings]
  exact lasts

theorem Backs.enter (backs : w.Backs h) (sc : Scope) : (sc.enter w).Backs h := by
  unfold Backs
  rw [next_enter, isOpen_enter, anchorsOf_enter]
  exact backs

/-- No operation takes an anchor from a handle. -/
theorem Backs.apply (backs : w.Backs h) (o : Op β) : (o.apply w).2.Backs h := by
  have onward := o.onward w
  refine ⟨Nat.lt_of_lt_of_le backs.1 onward.next, fun isOpen => ?_⟩
  obtain ⟨a, there, on⟩ := backs.2 (onward.opened _ backs.1 isOpen)
  exact ⟨a, o.anchorsOf_subset w isOpen there, on⟩

/-- Handles that the world or a scope's result holds have their anchors after the scope. -/
theorem Backs.exit {sc : Scope} {result : List Handle} (backs : w.Backs h)
    (held : h ∈ result ∨ h ∈ w.heldHandles) : (sc.exit result w).Backs h := by
  refine ⟨(next_exit sc w result).symm ▸ backs.1, fun isOpen => ?_⟩
  rw [isOpen_exit] at isOpen
  obtain ⟨a, there, on⟩ := backs.2 isOpen
  obtain ⟨b, kept⟩ := Anchor.settled_of_held rfl on.symm held
  rw [anchorsOf_exit]
  exact ⟨b, List.mem_filterMap.mpr ⟨a, there, kept⟩, (Anchor.id_of_settled kept).trans on⟩

/-- Handles that a scope's result holds last after the scope. -/
theorem Backs.given {sc : Scope} {result : List Handle} (backs : w.Backs h) (given : h ∈ result) :
    (sc.exit result w).Lasts h := by
  refine ⟨(next_exit sc w result).symm ▸ backs.1, fun isOpen => .inr ?_⟩
  rw [isOpen_exit] at isOpen
  obtain ⟨a, there, on⟩ := backs.2 isOpen
  obtain ⟨b, kept⟩ : ∃ b, a.settled h.state w.level result w.heldHandles = some b :=
    Anchor.settled_of_held rfl on.symm (.inl given)
  have same : b.id = h.anchor := (Anchor.id_of_settled kept).trans on
  rw [anchorsOf_exit]
  refine ⟨b, List.mem_filterMap.mpr ⟨a, there, kept⟩, same, ?_⟩
  -- What the result holds is settled before it matters whether the world does.
  have inResult : a.isIn h.state result := Anchor.isIn_iff.mpr ⟨h, given, rfl, on.symm⟩
  unfold Anchor.settled at kept
  rw [if_pos inResult] at kept
  split at kept
  · rename_i outer
    obtain ⟨n, scope, -⟩ := (Option.any_eq_true ..).mp outer
    cases kept
    exact Option.isSome_iff_exists.mpr ⟨n, scope⟩
  · cases kept
    rfl

namespace Anchored

/-- What an operation puts into the world is anchored if it was anchored before. -/
theorem apply (anchored : w.Anchored) {o : Op β} (own : o.HoldsOnly w.Backs) :
    (o.apply w).2.Anchored :=
  ⟨o.booked anchored.booked,
    (anchored.held.apply own).mono fun _ _ backs => backs.apply o⟩

theorem enter (anchored : w.Anchored) (sc : Scope) : (sc.enter w).Anchored :=
  ⟨anchored.booked.enter sc,
    (anchored.held.of_onlyEngines (.enter sc w)).mono fun _ _ backs => backs.enter sc⟩

theorem exit (anchored : w.Anchored) (sc : Scope) (result : List Handle) :
    (sc.exit result w).Anchored := by
  have same := (OnlyEngines.exit sc result w).heldHandles
  refine ⟨anchored.booked.exit sc result, ?_⟩
  refine (anchored.held.of_onlyEngines (.exit sc result w)).mono fun h held backs => ?_
  exact backs.exit (.inr (same ▸ held))

theorem retain (anchored : w.Anchored) (s : StateId) (kept : List Nat) :
    (w.retain s kept).2.Anchored := by
  have same := SameBooks.retain w s kept
  refine ⟨same.booked anchored.booked, ?_⟩
  refine (anchored.held.of_onlyEngines (.retain w s kept)).mono fun h _ backs => ?_
  unfold Backs
  rw [same.next, same.isOpen, same.anchorsOf]
  exact backs

end Anchored

end World

end ScriptBridge
