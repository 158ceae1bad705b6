import ScriptBridge.Proofs.Exchange

/-!
The host's side of a world: objects, native objects and registries, with the handles in them but
without their anchors. What the host does there commutes with forgetting all the rest.
-/

namespace ScriptBridge

open Script (Cell Table)

/-- The native object whose userdata a cell is. -/
def Script.Cell.native? : Cell → Option NativeId
  | .native n => some n
  | _ => none

/-- The content and the metatable of a table. -/
def Script.Cell.table? : Cell → Option (Table × Option Ref)
  | .table content metatable => some (content, metatable)
  | _ => none

/-- The object that a native object wraps. -/
def Native.wrapped? : Native → Option ObjectId
  | .wrapper o _ _ => some o
  | _ => none

theorem Script.Cell.table?_eq_some {c : Cell} {content : Table} {metatable : Option Ref}
    (is : c.table? = some (content, metatable)) : c = .table content metatable := by
  cases c <;> cases is
  rfl

namespace Store

variable {α β : Type} (f : α → β) (s : Store α)

/-- All items changed. -/
def map : Store β := ⟨s.slots.map (Option.map f)⟩

@[simp] theorem next_map : (s.map f).next = s.next := by
  simp [next, map]

@[simp] theorem get?_map (id : Nat) : (s.map f).get? id = (s.get? id).map f := by
  simp only [get?, map, Array.getElem?_map]
  cases s.slots[id]? <;> rfl

theorem map_add (a : α) : (s.add a).map f = (s.map f).add (f a) := by
  simp [map, add]

variable {f s}

theorem map_modify {g : α → α} {g' : β → β} (comm : ∀ a, f (g a) = g' (f a)) (id : Nat) :
    (s.modify id g).map f = (s.map f).modify id g' := by
  refine congrArg Store.mk (Array.ext_getElem? fun i => ?_)
  simp only [modify, map, Array.getElem?_map, Array.getElem?_modify]
  split <;> cases s.slots[i]? with
  | none => rfl
  | some item => cases item <;> simp [comm]

theorem map_erase (id : Nat) : (s.erase id).map f = (s.map f).erase id := by
  refine congrArg Store.mk (Array.ext_getElem? fun i => ?_)
  simp only [erase, map, Array.getElem?_map, Array.getElem?_modify]
  split <;> cases s.slots[i]? <;> rfl

end Store

namespace Value

@[simp] theorem bare_bare (v : Value) : v.bare.bare = v.bare := by
  cases v <;> rfl

/-- Values that are the same without their anchors: they are equal, or handles on one object. -/
theorem cases_of_bare {v v' : Value} (same : v'.bare = v.bare) :
    v' = v ∨ ∃ kind r a a', v = .handle ⟨kind, r, a⟩ ∧ v' = .handle ⟨kind, r, a'⟩ := by
  cases v with
  | handle h =>
    obtain ⟨kind, r, a⟩ := h
    cases v' with
    | handle h' =>
      obtain ⟨kind', r', a'⟩ := h'
      simp only [bare, handle.injEq, Handle.mk.injEq, and_true] at same
      obtain ⟨rfl, rfl⟩ := same
      exact .inr ⟨kind', r', a, a', rfl, rfl⟩
    | _ => cases same
  | _ =>
    cases v' with
    | handle h' => cases same
    | _ => exact .inl same

/-- What does not look at anchors is the same for such values. -/
theorem congr_bare {f : Value → α} (blind : ∀ kind r a, f (.handle ⟨kind, r, a⟩) =
    f (.handle ⟨kind, r, 0⟩)) {v v' : Value} (same : v'.bare = v.bare) : f v' = f v := by
  rcases cases_of_bare same with rfl | ⟨kind, r, a, a', rfl, rfl⟩
  · rfl
  · rw [blind, blind kind r a]

end Value

namespace HostValue

mutual

/-- A host value with handles without their anchors. -/
def bare : HostValue → HostValue
  | .variant v => .variant v.bare
  | .list items => .list (bareAll items)
  | v => v

def bareAll : List HostValue → List HostValue
  | [] => []
  | item :: items => item.bare :: bareAll items

end

theorem bareAll_eq (items : List HostValue) : bareAll items = items.map bare := by
  induction items with
  | nil => rfl
  | cons item rest ih => rw [bareAll, ih, List.map_cons]

mutual

theorem natives_bare (v : HostValue) : v.bare.natives = v.natives := by
  cases v with
  | list items => exact nativesAll_bare items
  | _ => rfl

theorem nativesAll_bare (items : List HostValue) : nativesAll (bareAll items) = nativesAll items := by
  cases items with
  | nil => rfl
  | cons item rest => rw [bareAll, nativesAll, nativesAll, natives_bare, nativesAll_bare]

end

end HostValue

/-- An object that holds handles without their anchors. Its connections are left as they are. -/
def HostObject.bare (o : HostObject) : HostObject :=
  { o with values := o.values.map fun (name, v) => (name, v.bare) }

/-- A native object that holds handles without their anchors. -/
def Native.bare : Native → Native
  | .bag items => .bag (items.map Value.bare)
  | native => native

@[simp] theorem Native.wrapped?_bare (native : Native) : native.bare.wrapped? = native.wrapped? := by
  cases native <;> rfl

namespace World

/-- A world without its engines and scopes, in which handles have no anchors. -/
def host (w : World) : World :=
  { w with
    objects := w.objects.map HostObject.bare
    natives := w.natives.map Native.bare
    engines := {}
    level := 0 }

variable {w w' : World} {o : ObjectId}

theorem host_of_outside (same : w'.outside = w.outside) : w'.host = w.host :=
  show w'.outside.host = w.outside.host from congrArg host same

section Looking

variable (w) (o)

@[simp] theorem object?_host : w.host.object? o = (w.object? o).map HostObject.bare :=
  Store.get?_map ..

@[simp] theorem native?_host (n : NativeId) : w.host.native? n = (w.native? n).map Native.bare :=
  Store.get?_map ..

@[simp] theorem classOf_host : w.host.classOf o = w.classOf o := by
  simp only [classOf, object?_host, Option.map_map]
  rfl

@[simp] theorem isDestroyed_host : w.host.isDestroyed o = w.isDestroyed o := by
  simp only [isDestroyed, object?_host, Option.map_map]
  rfl

@[simp] theorem nameOf_host : w.host.nameOf o = w.nameOf o := by
  simp only [nameOf, object?_host, Option.map_map]
  rfl

@[simp] theorem parentOf_host : w.host.parentOf o = w.parentOf o := by
  simp only [parentOf, object?_host, Option.bind_map]
  rfl

@[simp] theorem childrenOf_host : w.host.childrenOf o = w.childrenOf o := by
  simp only [childrenOf, object?_host, Option.map_map]
  rfl

@[simp] theorem connectionsOf_host (signal : String) :
    w.host.connectionsOf o signal = w.connectionsOf o signal := by
  simp only [connectionsOf, object?_host, Option.map_map]
  rfl

@[simp] theorem ensureAlive_host : w.host.ensureAlive o = w.ensureAlive o := by
  simp [ensureAlive]

@[simp] theorem treeBound_host : w.host.treeBound = w.treeBound := by
  simp [treeBound, host]

@[simp] theorem ancestry_host (n : Nat) : w.host.ancestry n o = w.ancestry n o := by
  induction n generalizing o with
  | zero => rfl
  | succ n ih =>
    rw [ancestry, ancestry, parentOf_host]
    cases w.parentOf o with
    | none => rfl
    | some p => simp [ih]

@[simp] theorem findChild_host (name : String) : w.host.findChild o name = w.findChild o name := by
  have each (n : Nat) (o : ObjectId) : w.host.findChildTo name n o = w.findChildTo name n o := by
    induction n generalizing o with
    | zero => rfl
    | succ n ih => simp [findChildTo, ih]
  rw [findChild, findChild, treeBound_host, each]

@[simp] theorem checkParent_host (parent : Option ObjectId) :
    w.host.checkParent o parent = w.checkParent o parent := by
  simp [checkParent]

@[simp] theorem stored_host (property : String) :
    Host.stored w.host o property = (Host.stored w o property).map HostValue.bare := by
  unfold Host.stored
  rw [object?_host]
  cases w.object? o with
  | none => rfl
  | some object =>
    simp only [Option.map_some, Option.bind_some, HostObject.bare, List.find?_map, Option.map_map]
    rfl

@[simp] theorem showHost_host : w.host.showHost o = w.showHost o := by
  simp [showHost]

@[simp] theorem lookupType_host (name : String) : w.host.lookupType name = w.lookupType name := rfl

end Looking

section Natives

variable (w) (native : Native)

@[simp] theorem typeName_host : native.typeName w.host = native.typeName w := by
  cases native <;> simp [Native.typeName]

@[simp] theorem display_host : native.display w.host = native.display w := by
  cases native <;> simp [Native.display, Native.typeName]

theorem typeName_bare : native.bare.typeName w = native.typeName w := by
  cases native <;> rfl

theorem display_bare : native.bare.display w = native.display w := by
  cases native <;> simp [Native.bare, Native.display, Native.typeName]

@[simp] theorem typeNameOf_host (n : NativeId) : w.host.typeNameOf n = w.typeNameOf n := by
  simp [typeNameOf, Function.comp_def, typeName_bare]

end Natives

section Cells

variable (w)

/-- The object whose wrapper is at a place. -/
def wrapped? (r : Ref) : Option ObjectId :=
  ((w.cell? r).bind Cell.native?).bind fun n => (w.native? n).bind Native.wrapped?

theorem tableAt_eq_table? (r : Ref) :
    w.tableAt r = (((w.cell? r).bind Cell.table?).map (·.1)).getD {} := by
  unfold tableAt
  cases w.cell? r with
  | none => rfl
  | some c => cases c <;> rfl

theorem nativeId?_userdata (r : Ref) (a : AnchorId) :
    w.nativeId? (.handle ⟨.userdata, r, a⟩) = (w.cell? r).bind Cell.native? := by
  unfold nativeId?
  dsimp only
  cases w.cell? r with
  | none => rfl
  | some c => cases c <;> rfl

theorem hostObject?_eq_wrapped? (v : Value) :
    w.hostObject? v = (w.nativeOf? v).bind Native.wrapped? := by
  unfold hostObject?
  cases w.nativeOf? v with
  | none => rfl
  | some native => cases native <;> rfl

end Cells

section Changing

variable (w) (o)

theorem host_modifyObject {f g : HostObject → HostObject}
    (comm : ∀ object, (f object).bare = g object.bare) :
    (w.modifyObject o f).host = w.host.modifyObject o g := by
  simp only [host, modifyObject, Store.map_modify comm]

theorem host_store (property : String) (value : HostValue) :
    (w.store o property value).host = w.host.store o property value.bare := by
  have put (contents : Contents) : (contents.put property value).map (fun (n, v) => (n, v.bare)) =
      Contents.put (contents.map fun (n, v) => (n, v.bare)) property value.bare := by
    simp only [Contents.put, List.any_map, Function.comp_def]
    split
    · simp only [List.map_map]
      refine List.map_congr_left fun (n, v) _ => ?_
      dsimp only [Function.comp_apply]
      split <;> rfl
    · simp
  exact w.host_modifyObject o fun object =>
    congrArg (fun values => ({ object with values := values } : HostObject)) (put object.values)

theorem host_detach : (w.detach o).host = w.host.detach o := by
  have alone : (w.modifyObject o fun object => { object with parent := none }).host =
      w.host.modifyObject o fun object => { object with parent := none } :=
    w.host_modifyObject o fun _ => rfl
  unfold detach
  rw [parentOf_host, ← alone]
  cases w.parentOf o with
  | none => rfl
  | some old => exact host_modifyObject _ old fun _ => rfl

theorem host_attach (parent : ObjectId) : (w.attach o parent).host = w.host.attach o parent := by
  have above : (w.modifyObject o fun object => { object with parent := some parent }).host =
      w.host.modifyObject o fun object => { object with parent := some parent } :=
    w.host_modifyObject o fun _ => rfl
  unfold attach
  rw [← above]
  exact host_modifyObject _ parent fun _ => rfl

theorem setParent_host (parent : Option ObjectId) :
    (w.setParent o parent).1 = (w.host.setParent o parent).1 ∧
      (w.setParent o parent).2.host = (w.host.setParent o parent).2 := by
  unfold setParent
  rw [checkParent_host]
  cases w.checkParent o parent with
  | error e => exact ⟨rfl, rfl⟩
  | ok =>
    cases parent with
    | none => exact ⟨rfl, w.host_detach o⟩
    | some p => exact ⟨rfl, by rw [host_attach, host_detach]⟩

theorem host_releaseChildren : (w.releaseChildren o).host = w.host.releaseChildren o := by
  have orphaned (children : List ObjectId) (w : World) :
      (children.foldl (fun w child => w.modifyObject child fun object =>
        { object with parent := none }) w).host =
      children.foldl (fun w child => w.modifyObject child fun object =>
        { object with parent := none }) w.host := by
    induction children generalizing w with
    | nil => rfl
    | cons child rest ih =>
      have first : (w.modifyObject child fun object => { object with parent := none }).host =
          w.host.modifyObject child fun object => { object with parent := none } :=
        w.host_modifyObject child fun _ => rfl
      rw [List.foldl_cons, List.foldl_cons, ih, first]
  unfold releaseChildren
  rw [childrenOf_host, ← orphaned]
  exact host_modifyObject _ o fun _ => rfl

theorem retire_host :
    (w.retire o).1 = (w.host.retire o).1 ∧ (w.retire o).2.host = (w.host.retire o).2 := by
  have marked : (w.markDestroyed o).host = w.host.markDestroyed o := by
    refine w.host_modifyObject o fun object => ?_
    simp only [apply_ite HostObject.bare]
    rfl
  have left : ((w.markDestroyed o).detach o).host = (w.host.markDestroyed o).detach o := by
    rw [host_detach, marked]
  unfold retire
  dsimp only
  rw [← left, childrenOf_host, host_releaseChildren]
  exact ⟨rfl, rfl⟩

theorem host_newObject (cls : Class) (name : String) :
    (w.newObject cls name).2.host = { w.host with
      objects := w.host.objects.add
        (HostObject.bare { cls := cls, name := name, values := cls.initialValues }) } := by
  simp only [host, newObject, Store.map_add]

theorem host_newNative (native : Native) :
    (w.newNative native).2.host =
      { w.host with natives := w.host.natives.add native.bare } := by
  simp only [host, newNative, Store.map_add]

theorem newWrapper_host (ownership : Ownership) :
    (w.newWrapper o ownership).1 = (w.host.newWrapper o ownership).1 ∧
      (w.newWrapper o ownership).2.host = (w.host.newWrapper o ownership).2 := by
  have owned : ((w.host.object? o).map (·.owned)).getD true =
      ((w.object? o).map (·.owned)).getD true := by
    rw [object?_host, Option.map_map]
    rfl
  have marked : (w.modifyObject o fun object => { object with owned := true }).host =
      w.host.modifyObject o fun object => { object with owned := true } :=
    w.host_modifyObject o fun _ => rfl
  unfold newWrapper
  rw [owned, host_newNative, marked]
  exact ⟨by simp [newNative, host, modifyObject], rfl⟩

theorem host_setCount (n : NativeId) (count : Int64) :
    (w.setCount n count).host = w.host.setCount n count := by
  simp only [host, setCount]
  rw [Store.map_modify]
  rintro (_ | _) <;> rfl

theorem host_eraseNative (n : NativeId) :
    host { w with natives := w.natives.erase n } =
      { w.host with natives := w.host.natives.erase n } := by
  simp only [host, Store.map_erase]

end Changing

end World

end ScriptBridge
