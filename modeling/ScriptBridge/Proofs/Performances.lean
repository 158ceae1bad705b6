import ScriptBridge.Native.Operations
import ScriptBridge.Proofs.Behaviours
import ScriptBridge.Proofs.Sprouts

/-!
What native objects do in twin worlds: their members are read, assigned and called alike, whatever
kind of native object it is, as long as no code of scripts takes part.
-/

namespace ScriptBridge

open ScriptBridge.Action (Follows FollowsIn)

variable {g : Setting} {n : Nat} {s : StateId}

theorem Value.same_typeNames {args args' : List Value} (same : List.Forall₂ Value.Same args args') :
    typeNames args' = typeNames args := by
  have named : args'.map typeName = args.map typeName := by
    induction same with
    | nil => rfl
    | cons first _ ih => exact congrArg₂ List.cons (congr_bare (fun _ _ _ => rfl) first) ih
  rw [typeNames, named, typeNames]

section Construction

theorem follows_newObject (c : Class) (name : String) :
    FollowsIn n (g.twins []) (.perform (.newObject c name)) (.perform (.newObject c name))
      fun o o' => o' = o := by
  refine follows_host id id fun w w' host => ⟨?_, ?_⟩
  · have next (w : World) : w.objects.next = w.host.objects.next := by simp [World.host]
    change w'.objects.next = w.objects.next
    rw [next, next w, host]
  · change (w'.newObject c name).2.host = (w.newObject c name).2.host
    rw [World.host_newObject, World.host_newObject, host]

/-- The arguments of a constructor get to their places. -/
theorem follows_creation (c : Class) (creation : Creation) {args args' : List HostValue}
    (same : List.Forall₂ HostValue.Same args args') :
    FollowsIn n (g.twins []) (creation.run c args) (creation.run c args') fun o o' => o' = o := by
  cases creation with
  | fail e => exact .throw fun _ _ => id
  | assign targets =>
    have placed : List.Forall₂ (fun p p' : Option Target × HostValue => p'.1 = p.1 ∧ p.2.Same p'.2)
        (targets.zip args) (targets.zip args') := by
      induction targets generalizing args args' with
      | nil => exact .nil
      | cons target targets ih =>
        cases same with
        | nil => exact .nil
        | cons first others => exact .cons ⟨rfl, first⟩ (ih others)
    refine (follows_newObject c "").next_eq fun o => ?_
    refine (Follows.forM placed ?_).next fun _ _ _ => .pure fun _ _ twins => ⟨rfl, twins⟩
    rintro ⟨target, v⟩ ⟨target', v'⟩ ⟨place, same⟩
    obtain rfl : target' = target := place
    cases target' with
    | none => exact .pure fun _ _ twins => ⟨trivial, twins⟩
    | some target =>
      cases target with
      | objectName =>
        have text : v'.asText = v.asText :=
          HostValue.congr_same (fun _ _ => rfl) (fun _ _ => rfl) same
        dsimp only
        rw [text]
        exact (follows_rename o _).weaken fun _ _ _ => trivial
      | property name => exact (follows_store o name same).weaken fun _ _ _ => trivial

theorem follows_instantiate (c : Class) (creator : Bool) {args args' : List Value}
    (same : List.Forall₂ Value.Same args args') :
    FollowsIn n (g.twins []) (c.instantiate creator args) (c.instantiate creator args')
      fun o o' => o' = o := by
  have isEmpty : args'.isEmpty = args.isEmpty := by cases same <;> rfl
  unfold Class.instantiate
  rw [isEmpty, Value.same_typeNames same]
  split
  · exact follows_newObject c ""
  · refine .view_eq (fun _ _ twins => twins.selectOverload Constructor.params c.constructors
      (Value.forall₂_same.mp same)) fun chosen => ?_
    cases chosen with
    | none => exact .throw fun _ _ => id
    | some constructor =>
      exact (follows_marshalArgs constructor.params same).next fun _ _ same =>
        follows_creation c constructor.creation same

end Construction

section Members

/-- The class of an object and the name of its member, as long as the object is alive. -/
theorem Sprouts.member {α : Type} {V : List Counterpart → α → α → Prop} (o : ObjectId)
    {key key' : Value} (same : key.Same key') {f f' : Class → String → Action α}
    (rest : ∀ c name, Sprouts g n [] (f c name) (f' c name) V) :
    Sprouts g n []
      (do
        let c ← Action.view (·.classOf o)
        let name ← .ofExcept (Native.memberName key c.name)
        .ofExcept (← .view (·.ensureAlive o))
        f c name)
      (do
        let c ← Action.view (·.classOf o)
        let name ← .ofExcept (Native.memberName key' c.name)
        .ofExcept (← .view (·.ensureAlive o))
        f' c name) V := by
  refine Follows.view_eq (fun _ _ twins => twins.same_host (·.classOf o) fun w => by simp) fun c => ?_
  have named : Native.memberName key' c.name = Native.memberName key c.name :=
    Value.congr_bare (f := (Native.memberName · c.name)) (fun _ _ _ => rfl) same
  rw [named]
  refine Sprouts.after_eq follows_ofExcept fun name => ?_
  exact Sprouts.check (fun _ _ twins => twins.same_host (·.ensureAlive o) fun w => by simp)
    fun _ => rest c name

theorem sprouts_writeMember (o : ObjectId) {key key' value value' : Value} (same : key.Same key')
    (same' : value.Same value') :
    Sprouts g n [] (Native.writeMember o key value) (Native.writeMember o key' value')
      fun _ x x' => x' = x := by
  refine Sprouts.member o same fun c name => ?_
  cases c.property? name with
  | none =>
    dsimp only
    split
    · exact Sprouts.pure rfl
    · exact Sprouts.throw _
  | some p =>
    dsimp only
    cases p.setter with
    | none => exact Sprouts.throw _
    | some setter =>
      refine Sprouts.after (follows_fromValue p.type same') fun v v' same => ?_
      refine Sprouts.after (follows_behaviour (answers g n) o p.name setter
        (.cons same .nil)).discard fun _ _ _ => ?_
      exact Sprouts.pure rfl

variable (isOpen : g.before.isOpen s)
include isOpen

theorem sprouts_readMember (o : ObjectId) {key key' : Value} (same : key.Same key') :
    Sprouts g n [] (Native.readMember s o key) (Native.readMember s o key') Value.Like := by
  refine Sprouts.member o same fun c name => ?_
  cases c.property? name with
  | none =>
    dsimp only
    split
    · exact Sprouts.throw _
    · exact (sprouts_wrapNative isOpen _).weaken fun _ _ _ new => new.like
  | some p =>
    exact Sprouts.after (follows_behaviour (answers g n) o p.name p.getter .nil) fun v v' same =>
      sprouts_toValue isOpen [] same

/-- The method that the arguments select is called with the same arguments. -/
theorem sprouts_callMember (o : ObjectId) (name : String) {args args' : List Value}
    (same : List.Forall₂ Value.Same args args') :
    Sprouts g n [] (Native.callMember s o name args) (Native.callMember s o name args')
      fun more => List.Forall₂ (Value.Like more) := by
  refine Follows.view_eq (fun _ _ twins => twins.same_host (·.classOf o) fun w => by simp) fun c => ?_
  refine Sprouts.check (fun _ _ twins => twins.same_host (·.ensureAlive o) fun w => by simp) fun _ => ?_
  refine Follows.view_eq (fun w w' twins => ?self) fun isSelf => ?_
  case self =>
    cases same with
    | nil => rfl
    | cons first _ =>
      dsimp only [List.head?_cons, Option.bind_some]
      rw [twins.hostObject? first]
  have others : List.Forall₂ Value.Same (if isSelf then args.drop 1 else args)
      (if isSelf then args'.drop 1 else args') := by
    split
    · exact List.forall₂_drop 1 same
    · exact same
  dsimp only
  generalize (if isSelf then args.drop 1 else args) = rest at others ⊢
  generalize (if isSelf then args'.drop 1 else args') = rest' at others ⊢
  refine Follows.view_eq (fun _ _ twins => twins.selectOverload Member.params (c.membersNamed name)
    (Value.forall₂_same.mp others)) fun chosen => ?_
  cases chosen with
  | none =>
    rw [Value.same_typeNames others]
    exact Sprouts.throw _
  | some m =>
    refine Sprouts.after (follows_marshalArgs m.params others) fun hostArgs hostArgs' same => ?_
    split
    · exact Sprouts.after (follows_emitSignal (answers g n) o m.text same) fun _ _ _ =>
        Sprouts.pure .nil
    · cases m.body with
      | none => exact Sprouts.throw _
      | some body =>
        refine Sprouts.after (follows_behaviour (answers g n) o m.text body same) fun v v' same => ?_
        have given : Sprouts g n [] (do pure [← HostValue.toValue s v])
            (do pure [← HostValue.toValue s v']) fun more => List.Forall₂ (Value.Like more) :=
          (sprouts_toValue isOpen [] same).bind fun more _ x x' like => Sprouts.pure (.cons like .nil)
        cases v <;> cases v' <;> first | exact given | (cases same; done) | exact Sprouts.pure .nil

end Members

section Natives

theorem sprouts_newIndex (m : NativeId) (native : Native) {key key' value value' : Value}
    (same : key.Same key') (same' : value.Same value') :
    Sprouts g n [] (native.newIndex m key value) (native.newIndex m key' value')
      fun _ x x' => x' = x := by
  have display : key'.display = key.display := Value.congr_bare (fun _ _ _ => rfl) same
  have given : value'.toInteger = value.toInteger := Value.congr_bare (fun _ _ _ => rfl) same'
  cases native with
  | wrapper o _ _ => exact sprouts_writeMember o same same'
  | typeNamespace =>
    unfold Native.newIndex
    rw [display]
    exact Sprouts.throw _
  | counter count =>
    have counted (i : Int64) : FollowsIn n (g.twins []) (.perform (.setCount m i))
        (.perform (.setCount m i)) fun x x' => x' = x := by
      refine follows_host id id fun w w' host => ⟨rfl, ?_⟩
      change (w'.setCount m i).host = (w.setCount m i).host
      rw [World.host_setCount, World.host_setCount, host]
    rcases Value.cases_of_bare same with rfl | ⟨kind, r, a, a', rfl, rfl⟩
    · unfold Native.newIndex
      dsimp only
      rw [given]
      split
      · exact Sprouts.after_eq follows_ofExcept fun i => Sprouts.after_eq (counted i) fun _ =>
          Sprouts.pure rfl
      · exact Sprouts.pure rfl
    · exact Sprouts.pure rfl
  | _ => exact Sprouts.pure rfl

theorem sprouts_assign (m : NativeId) (native : Native) {key key' value value' : Value}
    (same : key.Same key') (same' : value.Same value') :
    Sprouts g n [] (native.assign m key value) (native.assign m key' value') fun _ _ _ => True := by
  have display : key'.display = key.display := Value.congr_bare (fun _ _ _ => rfl) same
  refine (sprouts_newIndex m native same same').bind fun more _ taken taken' equal => ?_
  rw [equal, display]
  split
  · exact Sprouts.pure trivial
  · exact Follows.view_eq (fun _ _ twins => twins.same_host native.typeName fun w => by simp) fun _ =>
      Sprouts.throw _

variable (isOpen : g.before.isOpen s)
include isOpen

theorem sprouts_index (native : Native) {key key' : Value} (same : key.Same key') :
    Sprouts g n [] (native.index s key) (native.index s key') Value.Like := by
  have display : key'.display = key.display := Value.congr_bare (fun _ _ _ => rfl) same
  cases native with
  | wrapper o _ _ => exact sprouts_readMember isOpen o same
  | typeObject c creator =>
    refine Follows.view_eq (fun w w' twins => ?_) fun found =>
      Sprouts.of_keeps follows_ofExcept fun v v' equal => .same (congrArg Value.bare equal)
    have typed : w'.lookupType c.name = w.lookupType c.name :=
      twins.same_host (·.lookupType c.name) fun w => by simp
    rcases Value.cases_of_bare same with rfl | ⟨kind, r, a, a', rfl, rfl⟩
    · unfold Native.typeMember
      rw [typed]
    · rfl
  | typeNamespace =>
    rcases Value.cases_of_bare same with rfl | ⟨kind, r, a, a', rfl, rfl⟩
    · unfold Native.index
      dsimp only
      split
      · refine Follows.view_eq (fun _ _ twins => twins.same_host (·.lookupType _) fun w => by simp)
          fun found => ?_
        cases found with
        | some e => exact (sprouts_wrapNative isOpen _).weaken fun _ _ _ new => new.like
        | none => exact Sprouts.throw _
      · exact Sprouts.throw _
    · exact Sprouts.throw _
  | vec2 x y =>
    rcases Value.cases_of_bare same with rfl | ⟨kind, r, a, a', rfl, rfl⟩
    · unfold Native.index
      dsimp only
      split <;> first | exact Sprouts.pure (.same rfl) | exact Sprouts.throw _
    · exact Sprouts.throw _
  | counter count =>
    rcases Value.cases_of_bare same with rfl | ⟨kind, r, a, a', rfl, rfl⟩
    · unfold Native.index
      dsimp only
      split <;> first | exact Sprouts.pure (.same rfl) | exact Sprouts.throw _
    · exact Sprouts.throw _
  | bag items =>
    have position : key'.toInteger = key.toInteger := Value.congr_bare (fun _ _ _ => rfl) same
    unfold Native.index
    dsimp only
    rw [position]
    exact Sprouts.after_eq follows_ofExcept fun i => Sprouts.pure (.same rfl)
  | _ =>
    unfold Native.index
    dsimp only
    rw [display]
    exact Sprouts.throw _

theorem sprouts_call (native : Native) {args args' : List Value}
    (same : List.Forall₂ Value.Same args args') :
    Sprouts g n [] (native.call s args) (native.call s args')
      fun more => List.Forall₂ (Value.Like more) := by
  have refused (native : Native) : Sprouts g n []
      (do .throw (.notCallable (← .view native.typeName)) : Action (List Value))
      (do .throw (.notCallable (← .view native.typeName))) fun more => List.Forall₂ (Value.Like more) :=
    Follows.view_eq (fun _ _ twins => twins.same_host native.typeName fun w => by simp) fun _ =>
      Sprouts.throw _
  cases native with
  | boundMethod o name => exact sprouts_callMember isOpen o name same
  | typeObject c creator =>
    refine (Sprouts.after_eq (follows_instantiate c creator same) fun o =>
      sprouts_wrapObject isOpen o .script).bind fun more _ v v' like => Sprouts.pure (.cons like .nil)
  | bag items =>
    exact Sprouts.pure (List.rel_reverse (same.imp fun _ _ same => .same same))
  | _ => exact refused _

end Natives

end ScriptBridge
