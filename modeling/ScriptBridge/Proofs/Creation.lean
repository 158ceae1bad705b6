import ScriptBridge.Host.Library
import ScriptBridge.Proofs.Parents
import ScriptBridge.Proofs.RoundTrips

/-!
Objects that scripts make of a class. The arguments go to the creator or to one constructor; a host
object that comes last and is not taken as an argument becomes the parent of what has been made.
-/

namespace ScriptBridge

/-- The fields of an object after a constructor has put one argument where it belongs. -/
def HostObject.take (object : HostObject) : Option Target × HostValue → HostObject
  | (none, _) => object
  | (some .objectName, value) => { object with name := value.asText.getD "" }
  | (some (.property name), value) => { object with values := object.values.put name value }

namespace Class

/-- An object as the creator makes it. -/
def plainInstance (c : Class) : HostObject := { cls := c, values := c.initialValues }

/-- Whether the creator or a constructor takes arguments: the creator takes none, and a constructor
those that can be arguments of its parameters. -/
def Takes (w : World) (c : Class) (creator : Bool) (args : List Value) : Prop :=
  (creator = true ∧ args = []) ∨
    ∃ k ∈ c.constructors, List.Forall₂ (fun t v => t.accepts w v = true) k.params args

/-- What comes of making an object of arguments that a class takes. There is no object if the
constructor that has been chosen fails, or if it is not even called because a table among its
arguments cannot be read as a list. -/
inductive Makes (n : Nat) (w : World) (c : Class) (creator : Bool) (args : List Value) :
    Except BridgeError HostObject → Prop where
  | created (plain : creator = true ∧ args = []) : Makes n w c creator args (.ok c.plainInstance)
  | constructed {k : Constructor} {targets : List (Option Target)} {hosts : List HostValue}
      {v v' : World} (other : ¬ (creator = true ∧ args = []))
      (chosen : c.chooseConstructor w args = some k) (creation : k.creation = .assign targets)
      (alike : w.Alike v) (given : (marshalArgs k.params args).runTo (n + 1) v = (.ok hosts, v')) :
      Makes n w c creator args (.ok ((targets.zip hosts).foldl HostObject.take c.plainInstance))
  | failed {k : Constructor} {e : BridgeError} {hosts : List HostValue} {v v' : World}
      (other : ¬ (creator = true ∧ args = [])) (chosen : c.chooseConstructor w args = some k)
      (creation : k.creation = .fail e) (alike : w.Alike v)
      (given : (marshalArgs k.params args).runTo (n + 1) v = (.ok hosts, v')) :
      Makes n w c creator args (.error e)
  | unlistable {k : Constructor} {v : Value} {e : BridgeError}
      (other : ¬ (creator = true ∧ args = [])) (chosen : c.chooseConstructor w args = some k)
      (inside : (.list, v) ∈ k.params.zip args) (unlistable : v.Unlistable w e) :
      Makes n w c creator args (.error e)

/-- The failure to make an object of arguments that the class does not take. -/
def refusal (c : Class) (args : List Value) : BridgeError :=
  ⟨.typeMismatch, s!"no constructor of `{c.name}` accepts ({Value.typeNames args})",
    some "reflect.construct"⟩

end Class

/-- A world has got one more host object, as the last child of a parent if it has one. Nothing else
is different about the objects that had been there. -/
structure World.GainsObject (w : World) (object : HostObject) (parent : Option ObjectId)
    (w' : World) : Prop where
  made : ∃ owned, w'.object? w.objects.next =
    some { object with parent := parent, owned := owned }
  next : w'.objects.next = w.objects.next + 1
  joined : ∀ p, parent = some p → w'.object? p = (w.object? p).map fun other =>
    { other with children := other.children ++ [w.objects.next] }
  others : ∀ i, i ≠ w.objects.next → parent ≠ some i → w'.object? i = w.object? i

/-- How a request for an object ends whose arguments a class takes. An object whose parent has been
destroyed stays without a parent. -/
inductive Creates (n : Nat) (w : World) (c : Class) (creator : Bool) (args : List Value) :
    Option ObjectId → Except BridgeError Value → World → Prop where
  | made {parent : Option ObjectId} {object : HostObject} {v : Value} {w' : World}
      (makes : c.Makes n w creator args (.ok object))
      (alive : ∀ p, parent = some p → w.isDestroyed p = false)
      (gains : w.GainsObject object parent w') (stands : w'.hostObject? v = some w.objects.next) :
      Creates n w c creator args parent (.ok v) w'
  | orphaned {p : ObjectId} {object : HostObject} {e : BridgeError} {w' : World}
      (makes : c.Makes n w creator args (.ok object)) (dead : w.isDestroyed p = true)
      (gains : w.GainsObject object none w')
      (reason : p < w.objects.next → e = .destroyed (w.classOf p).name) :
      Creates n w c creator args (some p) (.error e) w'
  | failed {parent : Option ObjectId} {e : BridgeError} {w' : World}
      (makes : c.Makes n w creator args (.error e)) (same : w'.objects = w.objects) :
      Creates n w c creator args parent (.error e) w'

/-- A value that names a class that is registered: its type object, or its name. -/
inductive Value.Names (w : World) (v : Value) (c : Class) (creator : Bool) : Prop where
  | type (found : w.typeObject? v = some (c, creator)) : Names w v c creator
  | name {name : String} {e : TypeEntry} (text : v = .text name)
      (found : w.lookupType name = some e) (same : e.cls = c ∧ e.creator = creator) :
      Names w v c creator

theorem Value.Names.enter {w : World} {v : Value} {c : Class} {creator : Bool}
    (names : v.Names w c creator) : v.Names (Scope.values.enter w) c creator := by
  cases names with
  | type found =>
    refine .type ?_
    rwa [World.typeObject?, (World.Alike.enter .values w).nativeOf?]
  | name text found same => exact .name text found same

section Choice

variable {w w' : World} {c : Class} {creator : Bool} {args : List Value}

namespace Class

end Class

end Choice

namespace HostObject

/-- A constructor gives its object a name and values, and nothing else. -/
theorem foldl_take (object : HostObject) (items : List (Option Target × HostValue)) :
    ∃ name values, items.foldl take object = { object with name := name, values := values } := by
  induction items generalizing object with
  | nil => exact ⟨object.name, object.values, rfl⟩
  | cons item rest ih =>
    obtain ⟨name, values, filled⟩ := ih (object.take item)
    refine ⟨name, values, filled.trans ?_⟩
    obtain ⟨_ | _ | _, value⟩ := item <;> rfl

end HostObject

/-- An object that has just been made: it is alive, and has no place in the tree. -/
structure HostObject.Fresh (object : HostObject) : Prop where
  parent : object.parent = none
  children : object.children = []
  alive : object.destroyed = false

theorem Class.Makes.fresh {n : Nat} {w : World} {c : Class} {creator : Bool} {args : List Value}
    {object : HostObject} (makes : c.Makes n w creator args (.ok object)) : object.Fresh := by
  cases makes with
  | created => exact ⟨rfl, rfl, rfl⟩
  | constructed =>
    rename_i k targets hosts v v' other chosen creation alike given
    obtain ⟨name, values, filled⟩ := c.plainInstance.foldl_take (targets.zip hosts)
    rw [filled]
    exact ⟨rfl, rfl, rfl⟩

namespace World

variable {w v v' w' : World} {object : HostObject} {parent : Option ObjectId}

/-- One object has become another one. -/
structure Alters (w : World) (o : ObjectId) (object : HostObject) (w' : World) : Prop where
  object : w'.object? o = some object
  others : ∀ i, i ≠ o → w'.object? i = w.object? i
  next : w'.objects.next = w.objects.next
  rest : w.OnlyObjects w'

theorem Alters.trans {o : ObjectId} {object object' : HostObject} (first : w.Alters o object v)
    (second : v.Alters o object' w') : w.Alters o object' w' where
  object := second.object
  others i other := (second.others i other).trans (first.others i other)
  next := second.next.trans first.next
  rest := first.rest.trans second.rest

theorem Alters.modifyObject {o : ObjectId} (there : w.object? o = some object)
    (f : HostObject → HostObject) : w.Alters o (f object) (w.modifyObject o f) where
  object := by rw [object?_modifyObject, if_pos rfl, there, Option.map_some]
  others i other := by rw [object?_modifyObject, if_neg other.symm]
  next := Store.next_modify ..
  rest := .modifyObject w o f

theorem OnlyObjects.isOpen (only : w.OnlyObjects w') (s : StateId) : w'.isOpen s = w.isOpen s := by
  rw [only]
  rfl

theorem OnlyObjects.hostObject? (only : w.OnlyObjects w') (a : Value) :
    w'.hostObject? a = w.hostObject? a := by
  rw [only]
  rfl

theorem next_setParent (w : World) (o : ObjectId) (parent : Option ObjectId) :
    (w.setParent o parent).2.objects.next = w.objects.next := by
  unfold setParent
  split
  · rfl
  · cases parent with
    | none => exact next_detach w o
    | some p => exact ((Store.next_modify ..).trans (Store.next_modify ..)).trans (next_detach w o)

namespace GainsObject

theorem congr (gains : v.GainsObject object parent v') (before : v.objects = w.objects)
    (after : w'.objects = v'.objects) : w.GainsObject object parent w' := by
  have first : v.object? = w.object? := by
    funext i
    rw [object?, object?, before]
  have last : w'.object? = v'.object? := by
    funext i
    rw [object?, object?, after]
  obtain ⟨made, next, joined, others⟩ := gains
  rw [before] at made next joined others
  rw [first] at joined others
  rw [← last] at made joined others
  exact ⟨made, after ▸ next, joined, others⟩

/-- A new object that gets its fields before anybody sees it. -/
theorem of_newObject {c : Class} (alters : (v.newObject c "").2.Alters v.objects.next object v')
    (orphan : object.parent = none) : v.GainsObject object none v' where
  made := ⟨object.owned, by rw [alters.object, ← orphan]⟩
  next := alters.next.trans (Store.next_add ..)
  joined _ none := by cases none
  others i old _ := by rw [alters.others i old, object?_newObject, if_neg old]

/-- A new object may get an owner. -/
theorem claims (gains : w.GainsObject object none v) (claims : v.Claims w.objects.next w') :
    w.GainsObject object none w' := by
  rcases claims with same | same
  · exact gains.congr rfl same
  · suffices owned : w.GainsObject object none
        (v.modifyObject w.objects.next fun object => { object with owned := true }) from
      owned.congr rfl same
    obtain ⟨owned, made⟩ := gains.made
    refine ⟨⟨true, ?_⟩, (Store.next_modify ..).trans gains.next, fun _ none => ?_,
      fun i old strange => ?_⟩
    · rw [object?_modifyObject, if_pos rfl, made]
      rfl
    · cases none
    · rw [object?_modifyObject, if_neg (Ne.symm old), gains.others i old strange]

section Parents

variable (gains : w.GainsObject object none v) (fresh : object.Fresh)
include gains fresh

theorem object_next : ∃ made, v.object? w.objects.next = some made ∧ made.Fresh := by
  obtain ⟨owned, made⟩ := gains.made
  exact ⟨_, made, rfl, fresh.children, fresh.alive⟩

variable (forest : w.Forest)
include forest

/-- A new object has no place in the tree. -/
theorem stays_forest : v.Forest := by
  obtain ⟨made, there, new⟩ := gains.object_next fresh
  have before : w.object? w.objects.next = none := Store.get?_of_next_le _ (Nat.le_refl _)
  refine forest.of_links (fun i => ?_) fun i => ?_
  · by_cases self : i = w.objects.next
    · simp [parentOf, self, there, before, new.parent]
    · simp [parentOf, gains.others i self (by simp)]
  · by_cases self : i = w.objects.next
    · simp [childrenOf, self, there, before, new.children]
    · simp [childrenOf, gains.others i self (by simp)]

/-- A new object gets any parent that is alive. -/
theorem checkParent_ok {p : ObjectId}
    (alive : w.isDestroyed p = false) : v.checkParent w.objects.next (some p) = .ok () := by
  have standing := gains.stays_forest fresh forest
  obtain ⟨made, there, new⟩ := gains.object_next fresh
  obtain ⟨parent, known, -⟩ := object_of_alive alive
  have other : p ≠ w.objects.next := Nat.ne_of_lt (lt_next_of_object? known)
  cases checked : v.checkParent w.objects.next (some p) with
  | ok => rfl
  | error e =>
    rcases standing.checkParent_error_iff.mp checked with ⟨dead, -⟩ | ⟨-, _, ⟨⟩, wrong⟩
    · rw [isDestroyed_of_object? there, new.alive] at dead
      cases dead
    · rcases wrong with ⟨dead, -⟩ | ⟨-, path, -⟩
      · rw [isDestroyed, gains.others p other (by simp)] at dead
        exact absurd (alive.symm.trans dead) (by decide)
      · -- Nobody is below an object without children.
        rcases Relation.ReflTransGen.cases_tail path with same | ⟨child, -, below⟩
        · exact absurd same.symm other
        · have member := (standing.agree _ _).mpr below
          simp [childrenOf, there, new.children] at member

omit forest in
/-- A new object that gets a parent is its last child. -/
theorem setParent {p : ObjectId} (checked : v.checkParent w.objects.next (some p) = .ok ()) :
    w.GainsObject object (some p) (v.setParent w.objects.next (some p)).2 := by
  obtain ⟨made, there, new⟩ := gains.object_next fresh
  have looks := Forest.object?_setParent checked
  have orphan : v.parentOf w.objects.next = none := by simp [parentOf, there, new.parent]
  have other : p ≠ w.objects.next := by
    rintro rfl
    exact (Forest.checkParent_ok checked).2.2 (.head _)
  obtain ⟨owned, made⟩ := gains.made
  refine ⟨⟨owned, ?_⟩, (next_setParent ..).trans gains.next, ?_, fun i old strange => ?_⟩
  · simp [looks, made, other, orphan]
  · rintro _ ⟨⟩
    rw [looks, gains.others p other (by simp), orphan]
    simp [other.symm]
  · rw [looks, gains.others i old (by simp), orphan]
    simp [old.symm, strange]

end Parents

end GainsObject

end World

theorem Creates.of_alike {n : Nat} {w v w' : World} {c : Class} {creator : Bool} {args : List Value}
    {parent : Option ObjectId} {result : Except BridgeError Value}
    (creates : Creates n w c creator args parent result v) (alike : v.Alike w') :
    Creates n w c creator args parent result w' := by
  cases creates with
  | made makes alive gains stands =>
    refine .made makes alive (gains.congr rfl alike.objects) ?_
    rwa [World.hostObject?, alike.nativeOf?]
  | orphaned makes dead gains reason =>
    exact .orphaned makes dead (gains.congr rfl alike.objects) reason
  | failed makes same => exact .failed makes (alike.objects.trans same)

namespace Creation

variable {v : World}

/-- Puts one argument where it belongs. -/
def put (o : ObjectId) : Option Target × HostValue → Action Unit
  | (none, _) => pure ()
  | (some .objectName, value) => .perform (.rename o (value.asText.getD ""))
  | (some (.property name), value) => .perform (.store o name value)

theorem run_assign (c : Class) (targets : List (Option Target)) (hosts : List HostValue) :
    run c (.assign targets) hosts = .perform (.newObject c "") >>= fun o =>
      (targets.zip hosts).forM (put o) >>= fun _ => pure o := by
  refine congrArg (Action.perform (.newObject c "") >>= ·) (funext fun o => ?_)
  refine congrArg (· >>= fun _ => pure o) (congrArg (targets.zip hosts).forM (funext fun item => ?_))
  obtain ⟨_ | _ | _, value⟩ := item <;> rfl

theorem straight_put {o : ObjectId} {object : HostObject} (there : v.object? o = some object)
    (item : Option Target × HostValue) :
    ∃ v', (put o item).straight v = some ((), v') ∧ v.Alters o (object.take item) v' := by
  obtain ⟨_ | _ | _, value⟩ := item
  · exact ⟨v, rfl, there, fun _ _ => rfl, rfl, rfl⟩
  · exact ⟨_, rfl, .modifyObject there fun object =>
      { object with values := object.values.put _ value }⟩
  · exact ⟨_, rfl, .modifyObject there fun object => { object with name := value.asText.getD "" }⟩

theorem straight_fill {o : ObjectId} {object : HostObject} (there : v.object? o = some object)
    (items : List (Option Target × HostValue)) :
    ∃ v', (items.forM (put o)).straight v = some ((), v') ∧
      v.Alters o (items.foldl HostObject.take object) v' := by
  induction items generalizing v object with
  | nil => exact ⟨v, rfl, there, fun _ _ => rfl, rfl, rfl⟩
  | cons item rest ih =>
    obtain ⟨v₁, first, alters⟩ := straight_put there item
    obtain ⟨v', others, filled⟩ := ih alters.object
    refine ⟨v', ?_, alters.trans filled⟩
    rw [List.forM_eq_forM, List.forM_cons, Action.straight_bind, first]
    exact others

/-- A constructor that does not fail makes one object of its arguments. -/
theorem straight_assign (c : Class) (targets : List (Option Target)) (hosts : List HostValue)
    (v : World) : ∃ v', (Creation.run c (.assign targets) hosts).straight v =
        some (v.objects.next, v') ∧ v.OnlyObjects v' ∧
      v.GainsObject ((targets.zip hosts).foldl HostObject.take c.plainInstance) none v' := by
  have there : (v.newObject c "").2.object? v.objects.next = some c.plainInstance := by
    rw [World.object?_newObject, if_pos rfl]
    rfl
  obtain ⟨v', fills, alters⟩ := straight_fill there (targets.zip hosts)
  obtain ⟨name, values, filled⟩ := c.plainInstance.foldl_take (targets.zip hosts)
  refine ⟨v', ?_, alters.rest, .of_newObject alters (by rw [filled]; rfl)⟩
  rw [run_assign, Action.straight_bind, Action.straight_perform, Option.bind_some]
  change (Action.straight (_ >>= _) (v.newObject c "").2) = _
  rw [Action.straight_bind, fills]
  rfl

end Creation

namespace Class

variable {w v : World} {c : Class} {creator : Bool} {args : List Value}

end Class

namespace HostFunction

variable {w v : World} {s : StateId} {c : Class} {creator : Bool} {args : List Value}

section Split

variable {p : ObjectId}

end Split

end HostFunction

end ScriptBridge
