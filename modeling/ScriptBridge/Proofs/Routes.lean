import ScriptBridge.Host.Samples
import ScriptBridge.Proofs.Access
import ScriptBridge.Proofs.Performances

/-!
Two routes to a native object: an operation of the bridge that goes to the object at once, and a call
of a function of scripts that does the same with it. On both the object's own operation is carried out
once, and what that gives comes back. As long as no code of scripts takes part in the operation, both
come to the same.
-/

namespace ScriptBridge

open Script (CallForm CallbackResult Datum Machine Outcome)

/-- An operation of the bridge whose results are taken for others that hold the same handles. -/
theorem Action.runTo_operation_map {α β : Type} [Holding α] [Holding β] {n : Nat} {s : StateId}
    {f : α → β} (held : ∀ x, handles (f x) = handles x) {a : Action α} {result : Except Fault β}
    {w w₁ : World} (inside : (f <$> a).runTo n ((Scope.operation s).enter w) = (result, w₁)) :
    (f <$> Action.operation s a).runTo n w =
      (result, (Scope.operation s).exit (Scope.kept handles result) w₁) := by
  rw [runTo_map] at inside ⊢
  cases ran : a.runTo n ((Scope.operation s).enter w) with
  | mk given left =>
    rw [ran] at inside
    obtain ⟨rfl, rfl⟩ := Prod.ext_iff.mp inside
    rw [runTo_operation_exit ran]
    refine Prod.ext rfl ?_
    cases given with
    | error => rfl
    | ok x => exact congrArg (fun held => (Scope.operation s).exit held left) (held x).symm

namespace Access

variable {a : Access} {s : StateId} {w w' : World} {h : Handle} {n : NativeId} {native : Native}
  {o f thread : Ref} {k : Nat}

/-- The access through the bridge. -/
def direct (v : Value) : Access → Action (List Value)
  | .index key => (fun x => [x]) <$> v.index key
  | .assign key value => (fun _ => []) <$> v.setIndex key value
  | .call args => v.call args

/-- Through the bridge an access is one operation of the bridge, in which the object does what it
does. -/
theorem runTo_direct (kind : h.kind = .userdata) (isOpen : w.isOpen h.state)
    (holds : w.cell? h.target = some (.native n)) (there : w.native? n = some native)
    {result : Except Fault (List Value)} {w₀ : World}
    (ran : (a.perform h.state n native).runTo k ((Scope.operation h.state).enter w) = (result, w₀)) :
    (a.direct (.handle h)).runTo k w =
      (result, (Scope.operation h.state).exit (Scope.kept handles result) w₀) := by
  have checked := Action.runTo_straight (n := k) (Action.straight_checkOpen isOpen)
  have found : ((((Scope.operation h.state).enter w).nativeId? (.handle h)).bind fun n =>
      (((Scope.operation h.state).enter w).native? n).map fun native => (n, native)) =
      some (n, native) := by
    have alike := World.Alike.enter (.operation h.state) w
    simp [World.nativeId?, kind, alike.cell?, alike.native?, holds, there]
  cases a with
  | index key =>
    simp only [direct, Value.index, kind, map_bind]
    rw [Action.runTo_bind_ok checked]
    refine Action.runTo_operation_map (fun x => by simp [handles]) ?_
    unfold Value.native?
    rw [map_bind, Action.runTo_view_bind, found]
    exact ran
  | assign key value =>
    simp only [direct, Value.setIndex, kind, map_bind]
    rw [Action.runTo_bind_ok checked]
    refine Action.runTo_operation_map (f := fun _ : Unit => ([] : List Value)) (fun _ => rfl) ?_
    unfold Value.native?
    rw [map_bind, Action.runTo_view_bind, found]
    exact ran
  | call args =>
    simp only [direct, Value.call, kind]
    rw [Action.runTo_bind_ok checked]
    refine Action.runTo_operation_exit ?_
    unfold Value.native?
    rw [Action.runTo_view_bind, found]
    exact ran

/-- To call a function of scripts is one operation of the bridge, in which its engine runs it. -/
theorem runTo_call {f : Handle} (kind : f.kind = .function) (own : f.state = s) (isOpen : w.isOpen s)
    {args : List Value} {data : List Datum}
    (made : args.mapM (Value.datum ((Scope.operation s).enter w) s) = .ok data)
    {result : Except Fault (List Value)} {w₀ : World}
    (ran : (ScriptBridge.runTask s (.call (.function f.target) data) >>= Value.ofData).runTo k
      ((Scope.operation s).enter w) = (result, w₀)) :
    ((Value.handle f).call args).runTo k w =
      (result, (Scope.operation s).exit (Scope.kept handles result) w₀) := by
  subst own
  have target : f.datum = .function f.target := by
    simp [Handle.datum, kind]
  have converted : (Value.toData f.state args).runTo k ((Scope.operation f.state).enter w) =
      (.ok data, (Scope.operation f.state).enter w) := by
    rw [Value.runTo_toData, made]
    rfl
  simp only [Value.call, kind]
  rw [Action.runTo_bind_ok (Action.runTo_straight (Action.straight_checkOpen isOpen))]
  refine Action.runTo_operation_exit ?_
  rw [Action.runTo_bind_ok converted, target]
  exact ran

/-- What an operation of the bridge makes of the outcome of a task of its engine. -/
theorem runTo_concluded {task : Task} {outcome : Except Fault Outcome} {w₂ : World}
    (ran : (Script.runTask s task).runTo k w = (outcome, w₂)) :
    ∃ result w₀, (ScriptBridge.runTask s task >>= Value.ofData).runTo (k + 1) w = (result, w₀) ∧
      concluded s outcome w₂ = (result, (Scope.operation s).exit (Scope.kept handles result) w₀) := by
  have answered := Action.runTo_task ran
  unfold concluded
  cases hands : taskResult outcome with
  | error e =>
    rw [hands] at answered
    exact ⟨_, _, Action.runTo_bind_error answered, rfl⟩
  | ok data =>
    rw [hands] at answered
    exact ⟨_, _, (Action.runTo_bind_ok answered).trans ((Value.plain_ofData data).runTo_eq _ _), rfl⟩

/-- What a function of scripts hands on of what an object's operation gives: its results, its failure
unless the place for that has been lost, and all that it has done to the world. -/
structure Handed (s : StateId) (thread : Ref) (given : Except Fault (List Value)) (w₀ : World)
    (result : Except Fault (List Value)) (w' : World) : Prop where
  world : ((Scope.operation s).exit [] w₀).Beside thread w'
  results : ∀ values, given = .ok values → (∀ v ∈ values, v.BelongsTo s) → w₀.isOpen s →
    ∃ values', result = .ok values' ∧ values'.map Value.bare = values.map Value.bare
  failure : ∀ e, given = .error (.failed e) → ¬ w₀.PlaceLost thread → result = .error (.failed e)
  exhausted : given = .error .exhausted → result = .error .exhausted

theorem handed {m : Machine} {before : World} {form : CallForm} {given : Except Fault (List Value)}
    {w₀ : World} {outcome : Except Fault Outcome} {w₂ : World}
    (received : (outcome, w₂) = m.receive before form (asData s w₀ given) w₀) :
    Handed s m.thread given w₀ (concluded s outcome w₂).1 (concluded s outcome w₂).2 := by
  have beside : w₀.Beside m.thread w₂ := by
    have := m.receive_beside before form (asData s w₀ given) w₀
    rwa [← received] at this
  obtain ⟨rfl, rfl⟩ := Prod.ext_iff.mp received
  clear received
  rcases given with (e | _) | values
  · refine ⟨beside.exit s _ _, by simp, ?_, by simp⟩
    rintro _ ⟨⟩ kept
    have place : m.KeepsPlace (Scope.values.exit [] w₀) := by
      unfold Machine.KeepsPlace
      rwa [(World.Alike.exit .values _ w₀).thread?]
    simp only [asData, Machine.receive, Scope.kept, concluded, taskResult, place.cause]
    rfl
  · exact ⟨beside.exit s _ _, by simp, by simp, fun _ => rfl⟩
  · cases converted : values.mapM (Value.datum w₀ s) with
    | error e =>
      have failing : asData s w₀ (.ok values) = .error (.failed e) := by simp [asData, converted]
      rw [failing] at beside ⊢
      refine ⟨beside.exit s _ _, ?_, by simp, by simp⟩
      rintro _ ⟨⟩ belong isOpen
      obtain ⟨data, made⟩ := Value.data_of_belongsTo belong isOpen
      simp [made] at converted
    | ok data =>
      have giving : asData s w₀ (.ok values) = .ok (.ok data) := by simp [asData, converted]
      rw [giving] at beside ⊢
      obtain ⟨values', w₃, goes, same, onward, alike⟩ := Value.straight_ofData converted
        (m.receive before form (.ok (.ok data)) w₀).2
      obtain ⟨ran, left⟩ := (Ends.straight_iff goes).mp (Ends.of_run (Value.ofData data) _)
      rw [← left] at onward alike
      refine ⟨(beside.trans (.of_alike onward alike)).exit s _ _, ?_, by simp, by simp⟩
      rintro _ ⟨⟩ - -
      exact ⟨values', ran, same⟩

/-- The native object of a value, if it and a function are as they have to be. -/
def ready? (a : Access) (s : StateId) (w : World) (o f thread : Ref) : Option (NativeId × Native) :=
  match w.cell? o, w.cell? f with
  | some (.native n), some (.closure c) =>
    if (w.engine? s).map (·.running) = some thread ∧ a.isWritten c.body then
      (w.native? n).map fun native => (n, native)
    else none
  | _, _ => none

theorem ready_of_ready? (found : a.ready? s w o f thread = some (n, native)) :
    a.Ready s w o f n native thread := by
  unfold ready? at found
  split at found
  · rename_i n' c holds closure
    split at found
    · rename_i checked
      obtain ⟨native', there, same⟩ := Option.map_eq_some_iff.mp found
      cases same
      exact ⟨checked.1, holds, there, c, closure, written_of_isWritten checked.2⟩
    · cases found
  · cases found

theorem Ready.enter (ready : a.Ready s w o f n native thread) :
    a.Ready s ((Scope.operation s).enter w) o f n native thread := by
  have alike := World.Alike.enter (.operation s) w
  refine ⟨?_, (alike.cell? _).trans ready.holds, (alike.native? n).trans ready.there,
    ready.written.imp fun c written => ⟨(alike.cell? _).trans written.1, written.2⟩⟩
  rw [← ready.running]
  simp only [Scope.enter, World.engine?_modifyEngine, if_true, Option.map_map]
  rfl

/-- Through a function of scripts the object's operation is carried out once as well, in a world beside
the one before and on the same operands, and the function hands on what that gives. It takes one more
level of nesting; where there is none the engine refuses to run the function. -/
theorem runTo_scripted {f : Handle} (object : h.kind = .userdata) (own : h.state = s)
    (function : f.kind = .function) (own' : f.state = s)
    (ready : a.Ready s w h.target f.target n native thread)
    (belong : ∀ v ∈ a.operands, v.BelongsTo s) :
    ((Value.handle f).call (.handle h :: a.operands)).runTo 0 w =
      (.error (.failed BridgeError.tooDeep), (Scope.operation s).exit [] ((Scope.operation s).enter w)) ∧
    ∃ (a' : Access) (w₁ : World)
      (hand : Except Fault (List Value) → World → Except Fault (List Value) × World),
      a'.map Value.bare = a.map Value.bare ∧ ((Scope.operation s).enter w).Beside thread w₁ ∧
      ¬ w₁.PlaceLost thread ∧
      (∀ given w₀, Handed s thread given w₀ (hand given w₀).1 (hand given w₀).2) ∧
      ∀ k given w₀, (a'.perform s n native).runTo k w₁ = (given, w₀) →
        ((Value.handle f).call (.handle h :: a.operands)).runTo (k + 1) w = hand given w₀ := by
  subst own
  have entered := ready.enter
  obtain ⟨data, made⟩ := Value.data_of_belongsTo belong entered.isOpen
  obtain ⟨a', w₁, m, before, form, same, beside, kept, rfl, carries⟩ := runTo_task entered made
  have operands : (.handle h :: a.operands).mapM (Value.datum ((Scope.operation h.state).enter w)
      h.state) = .ok (.userdata h.target :: data) := by
    refine Value.data_cons.mpr ⟨_, data, ?_, made, rfl⟩
    simp [Value.datum, entered.isOpen, Handle.datum, object]
  refine ⟨runTo_call function own' ready.isOpen operands rfl, a', w₁, fun given w₀ =>
    let received := m.receive before form (asData h.state w₀ given) w₀
    concluded h.state received.1 received.2, same, beside, kept, fun given w₀ => handed rfl,
    fun k given w₀ performs => ?_⟩
  obtain ⟨result, w₂, concludes, same⟩ := runTo_concluded (carries k given w₀ performs)
  exact (runTo_call function own' ready.isOpen operands concludes).trans same.symm

/-- Outcomes of which one stands for the other: results that are the same, or new in both worlds, or
the same failure. -/
inductive Agree (news : List Counterpart) : Except Fault (List Value) → Except Fault (List Value) → Prop
  where
  | ok {values values' : List Value} (like : List.Forall₂ (Value.Like news) values values') :
    Agree news (.ok values) (.ok values')
  | error (e : Fault) : Agree news (.error e) (.error e)

/-- An object does the same in twin worlds. -/
theorem sprouts_perform {g : Setting} (isOpen : g.before.isOpen s) (n : NativeId) (native : Native)
    {a a' : Access} (same : a'.map Value.bare = a.map Value.bare) :
    Sprouts g k [] (a.perform s n native) (a'.perform s n native)
      fun more => List.Forall₂ (Value.Like more) := by
  cases a with
  | index key =>
    cases a' with
    | index key' =>
      exact (sprouts_index isOpen native (index.inj same)).map fun _ _ _ like => .cons like .nil
    | _ => cases same
  | assign key value =>
    cases a' with
    | assign key' value' =>
      obtain ⟨same, same'⟩ := assign.inj same
      exact (sprouts_assign n native same same').map fun _ _ _ _ => .nil
    | _ => cases same
  | call args =>
    cases a' with
    | call args' => exact sprouts_call isOpen native (Value.forall₂_same.mpr (call.inj same))
    | _ => cases same

/-- What a function of scripts hands on agrees with what the object gives at once. -/
theorem Handed.agree {waiting : Option Script.Thread} {news : List Counterpart}
    {given given' result : Except Fault (List Value)} {w₀ w₁ : World}
    (handed : Handed s thread given' w₁ result w') (same : Agree news given given')
    (twins : w.Twins thread waiting news w₀ w₁) (isOpen : w.isOpen s)
    (belong : ∀ values, given = .ok values → ∀ v ∈ values, v.BelongsTo s)
    (kept : ¬ w₁.PlaceLost thread) (held : List Handle) :
    Agree news given result ∧ w.Resembles thread news ((Scope.operation s).exit held w₀) w' := by
  refine ⟨?_, (twins.exit (.operation s) held []).toResembles.beside handed.world⟩
  cases same with
  | ok like =>
    rename_i values values'
    have belong' : ∀ v ∈ values', v.BelongsTo s := by
      intro v' member
      obtain ⟨i, bound, rfl⟩ := List.getElem_of_mem member
      have bound' : i < values.length := like.length_eq ▸ bound
      exact (belong values rfl _ (List.getElem_mem bound')).of_like twins.toResembles (like.get bound' bound)
    obtain ⟨results, rfl, same⟩ := handed.results values' rfl belong'
      (by rwa [twins.isOpen, twins.isOpen_first])
    exact .ok (Value.like_of_bare like same)
  | error e =>
    cases e with
    | failed e =>
      rw [handed.failure e rfl kept]
      exact .error _
    | exhausted =>
      rw [handed.exhausted rfl]
      exact .error _

/-- A native object may be accessed through the bridge or through a function of scripts that is
written for that. Either way its own operation is carried out once, on operands that scripts cannot
tell from the given ones and in a world that differs from the one before in books of engines, in the
native functions that wait in the coroutine that runs and in new variables only. Through the bridge,
what it gives is the outcome; the function hands on its results if they belong to the state, and its
failure if the place for that is kept. The function takes one level of nesting, and without that it is
refused. Where no code of scripts takes part in the operation, and the results belong to the state,
the outcomes are the same but for new objects, which stand for each other one to one, and so are the
worlds. -/
theorem routes_agree {h f : Handle} (sound : w.Sound) (object : h.kind = .userdata) (own : h.state = s)
    (function : f.kind = .function) (own' : f.state = s)
    (ready : a.Ready s w h.target f.target n native thread)
    (belong : ∀ v ∈ a.operands, v.BelongsTo s) :
    (∀ k result w₀, (a.perform s n native).runTo k ((Scope.operation s).enter w) = (result, w₀) →
      (a.direct (.handle h)).runTo k w =
        (result, (Scope.operation s).exit (Scope.kept handles result) w₀)) ∧
    ((Value.handle f).call (.handle h :: a.operands)).runTo 0 w =
      (.error (.failed BridgeError.tooDeep), (Scope.operation s).exit [] ((Scope.operation s).enter w)) ∧
    (∃ (a' : Access) (w₁ : World)
      (hand : Except Fault (List Value) → World → Except Fault (List Value) × World),
      a'.map Value.bare = a.map Value.bare ∧ ((Scope.operation s).enter w).Beside thread w₁ ∧
      ¬ w₁.PlaceLost thread ∧
      (∀ given w₀, Handed s thread given w₀ (hand given w₀).1 (hand given w₀).2) ∧
      ∀ k given w₀, (a'.perform s n native).runTo k w₁ = (given, w₀) →
        ((Value.handle f).call (.handle h :: a.operands)).runTo (k + 1) w = hand given w₀) ∧
    ∀ k result w' result' w'', (a.direct (.handle h)).runTo k w = (result, w') →
      ((Value.handle f).call (.handle h :: a.operands)).runTo (k + 1) w = (result', w'') →
      (a.perform s n native).Unscripted k ((Scope.operation s).enter w) →
      (∀ values, result = .ok values → ∀ v ∈ values, v.BelongsTo s) →
      ∃ news, Agree news result result' ∧ w.Resembles thread news w' w'' := by
  have direct : ∀ k result w₀,
      (a.perform s n native).runTo k ((Scope.operation s).enter w) = (result, w₀) →
      (a.direct (.handle h)).runTo k w =
        (result, (Scope.operation s).exit (Scope.kept handles result) w₀) := by
    subst own
    exact fun k result w₀ => runTo_direct object ready.isOpen ready.holds ready.there
  obtain ⟨refused, a', w₁, hand, same, beside, place, handed, scripted⟩ :=
    runTo_scripted object own function own' ready belong
  refine ⟨direct, refused, ⟨a', w₁, hand, same, beside, place, handed, scripted⟩, ?_⟩
  intro k result w' result' w'' ran ran' unscripted belongs
  obtain ⟨e, engine, running⟩ := Option.map_eq_some_iff.mp ready.running
  have owner : thread.owner = s := running ▸ sound.isolated.running engine
  let g : Setting := ⟨w, thread, w₁.thread? thread, by rw [owner, ready.running]⟩
  have twins : g.twins [] ((Scope.operation s).enter w) w₁ :=
    ⟨.of_beside sound.cached sound.isolated (.enter (.operation s) w) beside, rfl⟩
  have follows := sprouts_perform (g := g) (k := k) ready.isOpen n native same _ _ twins unscripted
  have kept {news : List Counterpart} {w₀ w₀' : World} (twins : g.twins news w₀ w₀') :
      ¬ w₀'.PlaceLost thread := by
    rwa [World.PlaceLost, twins.waits]
  rcases follows with ⟨values, values', w₀, w₀', performs, performs', news, -, like, twins⟩ |
    ⟨e, w₀, w₀', performs, performs', news, -, twins⟩
  · obtain ⟨rfl, rfl⟩ := Prod.ext_iff.mp ((direct k _ _ performs).symm.trans ran)
    obtain ⟨rfl, rfl⟩ := Prod.ext_iff.mp ((scripted k _ _ performs').symm.trans ran')
    exact ⟨news, (handed _ _).agree (.ok like) twins ready.isOpen belongs (kept twins) _⟩
  · obtain ⟨rfl, rfl⟩ := Prod.ext_iff.mp ((direct k _ _ performs).symm.trans ran)
    obtain ⟨rfl, rfl⟩ := Prod.ext_iff.mp ((scripted k _ _ performs').symm.trans ran')
    exact ⟨news, (handed _ _).agree (.error e) twins ready.isOpen belongs (kept twins) _⟩

/-- A wrapped host object and a function that reads its members. -/
def reading : List Step := [
  ⟨.openState .bare, []⟩, ⟨.newObject Samples.myObject "", ["object"]⟩,
  ⟨.wrap 0 0 .native, ["wrapper"]⟩,
  ⟨.execute 0 "return function(o, k) return o[k] end", ["get"]⟩]

/-- A method is bound anew on both routes. -/
theorem routes_agree_reading : ∃ v v' news,
    (((index (.text "setValue")).direct (.handle ⟨.userdata, ⟨0, 29⟩, 0⟩)).runTo 0
      (Step.play {} reading)).1 = .ok [v] ∧
    (((Value.handle ⟨.function, ⟨0, 31⟩, 1⟩).call
      [.handle ⟨.userdata, ⟨0, 29⟩, 0⟩, .text "setValue"]).runTo 1 (Step.play {} reading)).1 =
      .ok [v'] ∧
    v.Like news v' ∧
    (Step.play {} reading).Resembles ⟨0, 1⟩ news
      (((index (.text "setValue")).direct (.handle ⟨.userdata, ⟨0, 29⟩, 0⟩)).runTo 0
        (Step.play {} reading)).2
      (((Value.handle ⟨.function, ⟨0, 31⟩, 1⟩).call
        [.handle ⟨.userdata, ⟨0, 29⟩, 0⟩, .text "setValue"]).runTo 1 (Step.play {} reading)).2 := by
  obtain ⟨checked, gives⟩ :
      (((index (.text "setValue")).ready? 0 (Step.play {} reading) ⟨0, 29⟩ ⟨0, 31⟩ ⟨0, 1⟩).any
        fun x => (((index (.text "setValue")).perform 0 x.1 x.2).trace 0
          ((Scope.operation 0).enter (Step.play {} reading))).1.all Moment.isUnscripted) = true ∧
      (((index (.text "setValue")).direct (.handle ⟨.userdata, ⟨0, 29⟩, 0⟩)).runTo 0
        (Step.play {} reading)).1 = .ok [.handle ⟨.userdata, ⟨0, 32⟩, 2⟩] := by decide +kernel
  obtain ⟨⟨n, native⟩, found, quiet⟩ := (Option.any_eq_true ..).mp checked
  obtain ⟨moments, session⟩ := Session.start.play reading
  have belong : ∀ v ∈ (index (.text "setValue")).operands, v.BelongsTo 0 := by
    rintro v member h rfl
    simp [operands] at member
  obtain ⟨-, -, -, agree⟩ := routes_agree (h := ⟨.userdata, ⟨0, 29⟩, 0⟩)
    (f := ⟨.function, ⟨0, 31⟩, 1⟩) (Reaches.of_session session).sound rfl rfl rfl rfl
    (ready_of_ready? found) belong
  obtain ⟨news, agree, resembles⟩ := agree 0 _ _ _ _ (Prod.eta _).symm (Prod.eta _).symm
    (List.all_eq_true.mp quiet) (by
    rintro values same v member
    cases gives.symm.trans same
    obtain rfl := List.mem_singleton.mp member
    rintro _ ⟨⟩
    rfl)
  rw [gives] at agree
  cases results : (((Value.handle ⟨.function, ⟨0, 31⟩, 1⟩).call
      (.handle ⟨.userdata, ⟨0, 29⟩, 0⟩ :: (index (.text "setValue")).operands)).runTo 1
      (Step.play {} reading)).1 with
  | error =>
    rw [results] at agree
    cases agree
  | ok values =>
    rw [results] at agree
    cases agree with
    | ok like =>
      obtain ⟨v', _, first, rest, rfl⟩ := List.forall₂_cons_left_iff.mp like
      obtain rfl := List.forall₂_nil_left_iff.mp rest
      exact ⟨_, v', news, gives, results, first, resembles⟩

/-- An object with a receiver of its signal, which notes a failure that it catches. -/
def relaying : List Step := [
  ⟨.openState .bare, []⟩, ⟨.newObject Samples.myObject "", ["sender"]⟩,
  ⟨.wrap 0 0 .native, ["wrapper"]⟩, ⟨.registerFunction 0 "fail" .fail, []⟩,
  ⟨.execute 0 ("return function(o, ...) return o(...) end, " ++
    "function() _, failure = pcall(fail) end"), ["apply", "receiver"]⟩,
  ⟨.index (.handle ⟨.userdata, ⟨0, 29⟩, 0⟩) (.text "setValue"), ["setValue"]⟩,
  ⟨.connect 0 0 "valueChanged" (.handle ⟨.function, ⟨0, 33⟩, 4⟩), []⟩]

/-- The length of the failure that the receiver has noted after an action, with its traceback. -/
def noted (a : Action (List Value)) : Except Fault (List Value) :=
  ((State.execute 0 "return #tostring(failure)").run (a.run (Step.play {} relaying)).2).1

/-- What an object does may depend on the books of the engine: here the two routes do not agree. -/
theorem routes_differ_relaying :
    (∃ n native, (call [.int 1]).Ready 0 (Step.play {} relaying) ⟨0, 34⟩ ⟨0, 32⟩ n native ⟨0, 1⟩) ∧
    noted ((call [.int 1]).direct (.handle ⟨.userdata, ⟨0, 34⟩, 5⟩)) ≠
      noted ((Value.handle ⟨.function, ⟨0, 32⟩, 3⟩).call
        [.handle ⟨.userdata, ⟨0, 34⟩, 5⟩, .int 1]) := by
  obtain ⟨found, differ⟩ :
      ((call [.int 1]).ready? 0 (Step.play {} relaying) ⟨0, 34⟩ ⟨0, 32⟩ ⟨0, 1⟩).isSome = true ∧
      noted ((call [.int 1]).direct (.handle ⟨.userdata, ⟨0, 34⟩, 5⟩)) ≠
        noted ((Value.handle ⟨.function, ⟨0, 32⟩, 3⟩).call
          [.handle ⟨.userdata, ⟨0, 34⟩, 5⟩, .int 1]) := by decide +kernel
  obtain ⟨⟨n, native⟩, found⟩ := Option.isSome_iff_exists.mp found
  exact ⟨⟨n, native, ready_of_ready? found⟩, differ⟩

end Access

end ScriptBridge
