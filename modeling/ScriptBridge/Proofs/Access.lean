import ScriptBridge.Proofs.Exchange
import ScriptBridge.Proofs.Walks

/-!
Accesses to native objects from scripts: a function of scripts that does nothing but read a member,
assign one or call what it is given gets to the operation of the object, and ends with what that
gives.
-/

namespace ScriptBridge

open Script (CallForm CallbackResult Cell Closure Datum Described Env Expr FunctionBody Kont Machine
  Outcome Site Stmt argumentOf nativeOfDatum nativeEvents runMember)

/-- Whether the native function that waits in a coroutine has lost the place for its failure. -/
def World.PlaceLost (w : World) (thread : Ref) : Prop :=
  ((w.thread? thread).bind (·.waiting.head?)).map (·.reserve) = some .lost

theorem World.Alike.placeLost {w w' : World} (alike : w.Alike w') (thread : Ref) :
    w'.PlaceLost thread ↔ w.PlaceLost thread := by
  rw [World.PlaceLost, World.PlaceLost, alike.thread?]

/-- What one can do with an object: read a member, assign one, or call it. -/
inductive Access where
  | index (key : Value)
  | assign (key value : Value)
  | call (args : List Value)

namespace Access

/-- The operands besides the object. -/
def operands : Access → List Value
  | .index key => [key]
  | .assign key value => [key, value]
  | .call args => args

/-- The same access with other operands. -/
def map (f : Value → Value) : Access → Access
  | .index key => .index (f key)
  | .assign key value => .assign (f key) (f value)
  | .call args => .call (args.map f)

/-- What the object itself does. -/
def perform (s : StateId) (n : NativeId) (native : Native) : Access → Action (List Value)
  | .index key => (fun v => [v]) <$> native.index s key
  | .assign key value => (fun _ => []) <$> native.assign n key value
  | .call args => native.call s args

/-- The operation of native objects that it comes down to in an engine. -/
def event : Access → NativeEvent
  | .index _ => .index
  | .assign .. => .newIndex
  | .call _ => .call

/-- How many results there may be. -/
def Gives : Access → Nat → Prop
  | .index _, n => n = 1
  | .assign .., n => n = 0
  | .call _, _ => True

/-- The bodies of the functions `function(o, k) return o[k] end`,
`function(o, k, x) o[k] = x end` and `function(o, ...) return o(...) end`. -/
inductive Written : Access → FunctionBody → Prop where
  | index {key : Value} {o k : String} {captures : List String} {line line' : Nat}
    (distinct : o ≠ k) :
    Written (.index key)
      (.mk [o, k] false captures [.returns [.index (.var o false) (.var k false) line]] line')
  | assign {key value : Value} {o k x : String} {captures : List String} {line line₁ line' : Nat}
    (distinct : [o, k, x].Nodup) :
    Written (.assign key value)
      (.mk [o, k, x] false captures
        [.assign [.index (.var o false) (.var k false) line] [.var x false] line₁] line')
  | call {args : List Value} {o : String} {captures : List String} {line line' : Nat} :
    Written (.call args)
      (.mk [o] true captures [.returns [.call (.var o false) [.varargs] line]] line')

/-- Whether a function is written for an access. -/
def isWritten : Access → FunctionBody → Bool
  | .index _,
    .mk [o, k] false _ [.returns [.index (.var o' false) (.var k' false) _]] _ =>
    o' == o && k' == k && o != k
  | .assign .., .mk [o, k, x] false _
      [.assign [.index (.var o' false) (.var k' false) _] [.var x' false] _] _ =>
    o' == o && k' == k && x' == x && decide [o, k, x].Nodup
  | .call _, .mk [o] true _ [.returns [.call (.var o' false) [.varargs] _]] _ => o' == o
  | _, _ => false

theorem written_of_isWritten {a : Access} {body : FunctionBody} (found : a.isWritten body = true) :
    a.Written body := by
  unfold isWritten at found
  split at found
  · simp only [Bool.and_eq_true, beq_iff_eq, bne_iff_ne] at found
    obtain ⟨⟨rfl, rfl⟩, distinct⟩ := found
    exact .index distinct
  · simp only [Bool.and_eq_true, beq_iff_eq, decide_eq_true_eq] at found
    obtain ⟨⟨⟨rfl, rfl⟩, rfl⟩, distinct⟩ := found
    exact .assign distinct
  · obtain rfl := eq_of_beq found
    exact .call
  · cases found

/-- The frames that wait for the object's operation in such a function. -/
inductive Waits : Access → List Kont → Prop where
  | index {key : Value} {env : Env} {caller : Option Site} {title : String} :
    Waits (.index key) [.single, .gather [] [] env .returns, .activation caller title]
  | assign {key value : Value} {env : Env} {line : Nat} {caller : Option Site} {title : String} :
    Waits (.assign key value) [.stores [] env line, .block [] env, .activation caller title]
  | call {args : List Value} {env : Env} {caller : Option Site} {title : String} :
    Waits (.call args) [.gather [] [] env .returns, .activation caller title]

theorem Waits.spared {a : Access} {konts : List Kont} (waits : a.Waits konts) :
    ∀ k ∈ konts, k.catches = false := by
  cases waits <;> simp [Kont.catches]

end Access

namespace Script.Machine

variable {m : Machine} {w w' : World}

theorem metamethod_native {s : StateId} {o : Ref} {n : NativeId}
    (holds : w.cell? o = some (.native n)) (event : String) :
    w.metamethod s (.userdata o) event =
      (nativeEvents.find? (·.1 == event)).map fun (_, e) => .member e := by
  simp [World.metamethod, World.isNative, holds]

/-- To read a member of a native object is to call its operation. -/
theorem straight_index {o : Ref} {n : NativeId} (holds : w.cell? o = some (.native n)) (key : Datum)
    (name : Option Described) (site : Option Site) :
    (m.index (.userdata o) key name site).straight w =
      some ((m.push .single).callMetamethod (.member .index) "__index" [.userdata o, key] site, w) := by
  change (m.indexTo key site (1999 + 1) (.userdata o) name).straight w = _
  unfold indexTo metamethod
  simp only [Action.straight_bind, Action.straight_view, Option.bind_some, Datum.isNil, Bool.not_true,
    Bool.false_eq_true, if_false, metamethod_native holds]
  rfl

theorem straight_assign {o : Ref} {n : NativeId} (holds : w.cell? o = some (.native n))
    (key value : Datum) (name : Option Described) (site : Option Site) :
    (m.assign (.userdata o) key value name site).straight w =
      some (m.callMetamethod (.member .newIndex) "__newindex" [.userdata o, key, value] site, w) := by
  change (m.assignTo key value site (1999 + 1) (.userdata o) name).straight w = _
  unfold assignTo metamethod
  simp only [Action.straight_bind, Action.straight_view, Option.bind_some, Datum.isNil,
    metamethod_native holds, if_true]
  rfl

theorem straight_call_native {o : Ref} {n : NativeId} (holds : w.cell? o = some (.native n))
    (args : List Datum) (form : CallForm) :
    (m.enterCall (.datum (.userdata o)) args form).straight w =
      some (m.call (.member .call) (.userdata o :: args) form, w) := by
  unfold enterCall metamethod
  simp only [Action.straight_bind, Action.straight_view, Option.bind_some, metamethod_native holds]
  rfl

/-- What waits for an operation hands its results on to the end of the function. -/
theorem walks_back {a : Access} (waits : a.Waits m.konts) {results : List Datum}
    (gives : a.Gives results.length) : ∃ n ≤ 4,
      Walks n (m.give results) w { m with control := .give results, konts := [] } w := by
  obtain ⟨s, thread, control, konts, callers, isResumed⟩ := m
  cases waits with
  | index =>
    obtain ⟨result, rfl⟩ := List.length_eq_one_iff.mp gives
    exact ⟨3, by omega, .step rfl (.step rfl (.one rfl))⟩
  | assign =>
    obtain rfl := List.length_eq_zero_iff.mp gives
    exact ⟨4, by omega, .step rfl (.step rfl (.step rfl (.one rfl)))⟩
  | call => exact ⟨2, by omega, .step rfl (.one rfl)⟩

/-- A function of scripts that is written for it gets to the object's operation. -/
theorem walks_to_native {a : Access} {c : Closure} (written : a.Written c.body)
    (isOpen : w.isOpen m.state) {r o : Ref} {n : NativeId} (closure : w.cell? r = some (.closure c))
    (holds : w.cell? o = some (.native n)) {data : List Datum}
    (many : data.length = a.operands.length)
    (calls : m.control = .call (.datum (.function r)) (.userdata o :: data) {})
    (bottom : m.konts = []) : ∃ k ≤ 8, ∃ m' w', Walks k m w m' w' ∧ w.Beside m.thread w' ∧
      m'.state = m.state ∧ m'.thread = m.thread ∧ m'.callers = m.callers ∧
      m'.isResumed = m.isResumed ∧ a.Waits m'.konts ∧
      ∃ form, m'.control = .call (.member a.event) (.userdata o :: data) form := by
  obtain ⟨body, vars, chunk⟩ := c
  obtain ⟨s, thread, control, konts, callers, isResumed⟩ := m
  dsimp only at calls bottom
  subst calls bottom
  cases written with
  | @index key o' k captures line line' distinct =>
    obtain ⟨d, rfl⟩ := List.length_eq_one_iff.mp many
    obtain ⟨env, w', title, entered, beside, -, -, reads⟩ :=
      walks_call isOpen closure (by simpa [FunctionBody.params] using distinct) rfl rfl
    have object : w'.Reads env o' (.userdata o) := reads (o', _) (.head _)
    have member : w'.Reads env k d := reads (k, _) (.tail _ (.head _))
    have walks := entered.trans (.step rfl (.step rfl (.trans (walks_variable rfl object)
      (.step rfl (.trans (walks_variable rfl member)
        (.of_step rfl (straight_index (beside.mirrors.cell? holds (by simp)) d _ _)))))))
    exact ⟨_, by omega, _, w', walks, beside, rfl, rfl, rfl, rfl, .index, _, rfl⟩
  | @assign key value o' k x captures line line₁ line' distinct =>
    obtain ⟨d, x', rfl⟩ : ∃ d x', data = [d, x'] := by
      match data, many with
      | [d, x'], _ => exact ⟨d, x', rfl⟩
    obtain ⟨env, w', title, entered, beside, -, -, reads⟩ := walks_call isOpen closure distinct rfl rfl
    have object : w'.Reads env o' (.userdata o) := reads (o', _) (.head _)
    have member : w'.Reads env k d := reads (k, _) (.tail _ (.head _))
    have operand : w'.Reads env x x' := reads (x, _) (.tail _ (.tail _ (.head _)))
    have walks := entered.trans (.step rfl (.trans (walks_variable rfl object)
      (.step rfl (.trans (walks_variable rfl member) (.step rfl (.trans (walks_variable rfl operand)
        (.of_step rfl (straight_assign (beside.mirrors.cell? holds (by simp)) d x' _ _))))))))
    exact ⟨_, by omega, _, w', walks, beside, rfl, rfl, rfl, rfl, .assign, _, rfl⟩
  | @call args o' captures line line' =>
    obtain ⟨env, w', title, entered, beside, varargs, -, reads⟩ :=
      walks_call isOpen closure (by simp [FunctionBody.params]) rfl rfl
    have object : w'.Reads env o' (.userdata o) := reads (o', _) (.head _)
    have rest : env.varargs = data := varargs
    subst rest
    have walks := entered.trans (.step rfl (.trans (walks_variable rfl object)
      (.step rfl (.step rfl (.step rfl (.of_step rfl
        (straight_call_native (beside.mirrors.cell? holds (by simp)) env.varargs _)))))))
    exact ⟨_, by omega, _, w', walks, beside, rfl, rfl, rfl, rfl, .call, _, rfl⟩

theorem receive_beside (m : Machine) (before : World) (form : CallForm)
    (inner : Except Fault CallbackResult) (w : World) :
    w.Beside m.thread (m.receive before form inner w).2 := by
  have left : w.Beside m.thread (w.closeScope (Scope.kept handles inner)) := .closeScope w _
  have popped (w : World) : w.Beside m.thread (m.popWaiting w) := .changeThread w fun _ => rfl
  rcases inner with (e | _) | _ | data
  · exact left.trans (popped _)
  · exact left
  · exact left.trans (popped _)
  · exact (left.trans (popped _)).trans (.givePlace _ _)

theorem enterNative_beside (m : Machine) (w : World) (form : CallForm) :
    w.Beside m.thread (m.enterNative w form) :=
  ((World.Beside.takePlace w m.state).trans (.changeThread _
    (f := fun t => { t with waiting := _ :: t.waiting }) fun _ => rfl)).trans (.openScope _)

/-- How the function ends of which the frames wait for an operation: with what the operation gives. -/
theorem straight_back {a : Access} (waits : a.Waits m.konts) (alone : m.callers = [])
    (entered : m.isResumed = false) {form : CallForm} {outcome : Outcome}
    (gives : ∀ data, outcome = .ok data → a.Gives data.length) {k : Nat} (enough : 5 ≤ k) :
    ((m.goOn form outcome).run k).straight w = some (outcome, w) := by
  cases outcome with
  | ok data =>
    obtain ⟨n, few, walks⟩ := walks_back (w := w) waits (gives data rfl)
    obtain ⟨rest, rfl⟩ : ∃ rest, k = n + (rest + 1) := ⟨k - n - 1, by omega⟩
    exact (walks.straight_run _).trans (straight_run rfl rfl alone entered)
  | error e =>
    obtain ⟨rest, rfl⟩ : ∃ rest, k = rest + 1 := ⟨k - 1, by omega⟩
    exact straight_raise (m := m.goOn form (.error e)) rfl waits.spared alone entered

theorem of_receive_ok {before : World} {form : CallForm} {inner : Except Fault CallbackResult}
    {data : List Datum} (received : (m.receive before form inner w).1 = .ok (.ok data)) :
    inner = .ok (.ok data) := by
  rcases inner with (e | _) | _ | data' <;> cases received
  rfl

/-- Native code that a script calls runs once, and the script goes on with what it gets. -/
theorem runTo_callNative {form : CallForm} {body : Action CallbackResult} {n : Nat}
    {inner : Except Fault CallbackResult} {w₀ : World}
    (ran : body.runTo n (m.enterNative w form) = (inner, w₀)) :
    (m.callNative form body).runTo n w =
      (m.receive w form inner w₀).map (·.map (m.goOn form)) id := by
  unfold callNative withPlace
  rw [Action.runTo_view_bind]
  simp only [bind_assoc]
  rw [Action.runTo_bind_ok (Action.runTo_straight (Action.straight_perform _)),
    Action.runTo_bind_ok (Action.runTo_straight (Action.straight_updateThread ..))]
  rcases inner with (e | _) | e | data
  · refine (Action.runTo_bind_ok (Action.runTo_attempt_error ran)).trans ?_
    rw [Action.runTo_view_bind,
      Action.runTo_bind_ok (Action.runTo_straight (Action.straight_updateThread ..))]
    exact Action.runTo_pure ..
  · exact Action.runTo_bind_error (Action.runTo_attempt_exhausted ran)
  · refine (Action.runTo_bind_ok (Action.runTo_attempt_ok ran)).trans ?_
    rw [Action.runTo_view_bind,
      Action.runTo_bind_ok (Action.runTo_straight (Action.straight_updateThread ..))]
    exact Action.runTo_pure ..
  · refine (Action.runTo_bind_ok (Action.runTo_attempt_ok ran)).trans ?_
    rw [Action.runTo_view_bind,
      Action.runTo_bind_ok (Action.runTo_straight (Action.straight_updateThread ..))]
    exact (Action.runTo_bind_ok (Action.runTo_straight (Action.straight_perform _))).trans
      (Action.runTo_pure ..)

/-- A function that waits for an operation ends with what it gets from there. -/
theorem runTo_native {a : Access} {args : List Datum} {form : CallForm}
    (calls : m.control = .call (.member a.event) args form) (waits : a.Waits m.konts)
    (alone : m.callers = []) (entered : m.isResumed = false) {n : Nat}
    {inner : Except Fault CallbackResult} {w₀ : World}
    (ran : (runMember m.state a.event args).runTo n (m.enterNative w form) = (inner, w₀))
    (gives : ∀ data, inner = .ok (.ok data) → a.Gives data.length) {k : Nat} (enough : 5 ≤ k) :
    (m.run (k + 1)).runTo n w = m.receive w form inner w₀ := by
  have stepping : m.step = .continue <$> m.callNative form (runMember m.state a.event args) := by
    unfold step
    rw [calls]
    rfl
  have called := runTo_callNative (n := n) ran
  rw [run, stepping, map_eq_pure_bind, bind_assoc]
  cases received : (m.receive w form inner w₀).1 with
  | error e =>
    rw [Action.runTo_bind_error (called.trans (Prod.ext (by rw [Prod.map_fst, received]; rfl) rfl))]
    exact Prod.ext received.symm rfl
  | ok outcome =>
    rw [Action.runTo_bind_ok (called.trans (Prod.ext (by rw [Prod.map_fst, received]; rfl) rfl)), pure_bind]
    refine (Action.runTo_straight (straight_back waits alone entered ?_ enough)).trans
      (Prod.ext received.symm rfl)
    rintro data rfl
    exact gives data (of_receive_ok received)

end Script.Machine

namespace Access

variable {a : Access} {s : StateId} {w w' : World} {n : NativeId} {native : Native}

theorem gives_of_perform {values : List Value} {k : Nat}
    (ran : (a.perform s n native).runTo k w = (.ok values, w')) : a.Gives values.length := by
  have ends := Ends.of_runTo k (a.perform s n native) w
  rw [ran] at ends
  cases a with
  | index | assign =>
    obtain ⟨_ | _, -, same⟩ := Ends.map_iff.mp ends
    · cases same
    · cases same
      rfl
  | call => trivial

theorem straight_argumentOf {w₀ : World} {v : Value} {d : Datum} (made : v.datum w₀ s = .ok d)
    (event : NativeEvent) (position : Nat) (w : World) :
    ∃ v' w', (argumentOf event position d).straight w = some (.ok v', w') ∧ v'.bare = v.bare ∧
      w.Mirrors w' ∧ w.Alike w' := by
  obtain ⟨v', w', goes, same, mirrors⟩ := Value.straight_ofDatum made w
  refine ⟨v', w', ?_, same, mirrors⟩
  cases d with
  | failure => cases goes
  | _ => simp [argumentOf, goes]

/-- What the object itself does, with its results as data. -/
def performed (s : StateId) (n : NativeId) (native : Native) (a : Access) : Action CallbackResult := do
  let values ← a.perform s n native
  pure (.ok (← Value.toData s values))

/-- The operation of a userdata is that of the native object in it, on the operands as values. -/
theorem runMember_becomes {o : Ref}
    (holds : w.cell? o = some (.native n)) (there : w.native? n = some native) {w₀ : World}
    {data : List Datum} (made : a.operands.mapM (Value.datum w₀ s) = .ok data) :
    ∃ (a' : Access) (w₁ : World), a'.map Value.bare = a.map Value.bare ∧ w.Mirrors w₁ ∧
      w.Alike w₁ ∧ (runMember s a.event (.userdata o :: data)).Becomes w
        (a'.performed s n native) w₁ := by
  have found : nativeOfDatum w (.userdata o) = some (n, native) := by
    simp [nativeOfDatum, holds, there]
  cases a with
  | index key =>
    obtain ⟨d, _, makes, rest, rfl⟩ := Value.data_cons.mp made
    obtain rfl := Value.data_nil.mp rest
    obtain ⟨key', w₁, goes, same, mirrors, alike⟩ := straight_argumentOf makes .index 2 w
    refine ⟨.index key', w₁, by simp [map, same], mirrors, alike, ?_⟩
    have onward : performed s n native (.index key') =
        native.index s key' >>= Script.oneDatum s := by
      simp only [performed, perform, Value.toData, map_eq_pure_bind, bind_assoc, pure_bind,
        List.mapM_cons, List.mapM_nil]
      rfl
    rw [onward]
    refine .trans (.view (nativeOfDatum · (.userdata o)) _ w) ?_
    rw [found]
    exact .bind goes _
  | assign key value =>
    obtain ⟨d, _, makes, rest, rfl⟩ := Value.data_cons.mp made
    obtain ⟨x, _, makes', last, rfl⟩ := Value.data_cons.mp rest
    obtain rfl := Value.data_nil.mp last
    obtain ⟨key', w₁, goes, same, mirrors, alike⟩ := straight_argumentOf makes .newIndex 2 w
    obtain ⟨value', w₂, goes', same', mirrors', alike'⟩ :=
      straight_argumentOf makes' .newIndex 3 w₁
    refine ⟨.assign key' value', w₂, by simp [map, same, same'], mirrors.trans mirrors',
      alike.trans alike', ?_⟩
    have onward : performed s n native (.assign key' value') =
        native.assign n key' value' >>= fun _ => pure (.ok []) := by
      simp only [performed, perform, Value.toData, map_eq_pure_bind, bind_assoc, pure_bind,
        List.mapM_nil]
    rw [onward]
    refine .trans (.view (nativeOfDatum · (.userdata o)) _ w) ?_
    rw [found]
    exact .trans (.bind goes _) (.bind goes' _)
  | call args =>
    obtain ⟨args', w₁, goes, same, mirrors, alike⟩ := Value.straight_ofData made w
    refine ⟨.call args', w₁, congrArg Access.call same, mirrors, alike, ?_⟩
    refine .trans (.view (nativeOfDatum · (.userdata o)) _ w) ?_
    rw [found]
    exact .bind goes _

variable {o f thread : Ref}

/-- The results of an operation as data of a state. -/
def asData (s : StateId) (w : World) : Except Fault (List Value) → Except Fault CallbackResult
  | .ok values =>
    match values.mapM (Value.datum w s) with
    | .ok data => .ok (.ok data)
    | .error e => .error (.failed e)
  | .error e => .error e

theorem performed_iff {result : Except Fault CallbackResult} :
    Ends (a.performed s n native) w result w' ↔
      ∃ given, Ends (a.perform s n native) w given w' ∧ result = asData s w' given := by
  have converts {values : List Value} {w : World} : Ends (Value.toData s values >>= fun data =>
      (pure (.ok data) : Action CallbackResult)) w result w' ↔
      result = asData s w (.ok values) ∧ w' = w := by
    unfold asData
    rw [Ends.bind_iff]
    simp only [Ends.toData_iff, Ends.pure_iff]
    cases values.mapM (Value.datum w s) with
    | error e =>
      constructor
      · rintro (⟨_, _, ⟨⟨⟩, -⟩, -⟩ | ⟨_, rfl, ⟨⟩, rfl⟩)
        exact ⟨rfl, rfl⟩
      · rintro ⟨rfl, rfl⟩
        exact .inr ⟨_, rfl, rfl, rfl⟩
    | ok data =>
      constructor
      · rintro (⟨_, _, ⟨⟨⟩, rfl⟩, rfl, rfl⟩ | ⟨_, -, ⟨⟩, -⟩)
        exact ⟨rfl, rfl⟩
      · rintro ⟨rfl, rfl⟩
        exact .inl ⟨data, w', ⟨rfl, rfl⟩, rfl, rfl⟩
  unfold performed
  rw [Ends.bind_iff]
  simp only [converts]
  constructor
  · rintro (⟨values, w₁, ends, rfl, rfl⟩ | ⟨e, rfl, failed⟩)
    · exact ⟨_, ends, rfl⟩
    · exact ⟨_, failed, rfl⟩
  · rintro ⟨e | values, ends, rfl⟩
    · exact .inr ⟨e, rfl, ends⟩
    · exact .inl ⟨values, w', ends, rfl, rfl⟩

theorem runTo_performed {k : Nat} {given : Except Fault (List Value)}
    (ran : (a.perform s n native).runTo k w = (given, w')) :
    (a.performed s n native).runTo k w = (asData s w' given, w') := by
  unfold performed asData
  cases given with
  | error e => exact Action.runTo_bind_error ran
  | ok values =>
    rw [Action.runTo_bind_ok ran]
    have converted := Value.runTo_toData k s values w'
    dsimp only
    cases shown : values.mapM (Value.datum w' s) with
    | error e =>
      rw [shown] at converted
      exact Action.runTo_bind_error converted
    | ok data =>
      rw [shown] at converted
      exact (Action.runTo_bind_ok converted).trans (Action.runTo_pure ..)

theorem gives_of_asData {given : Except Fault (List Value)} {data : List Datum}
    (gives : ∀ values, given = .ok values → a.Gives values.length)
    (made : asData s w given = .ok (.ok data)) : a.Gives data.length := by
  cases given with
  | error => cases made
  | ok values =>
    unfold asData at made
    cases converted : values.mapM (Value.datum w s) with
    | error e => simp [converted] at made
    | ok data' =>
      simp only [converted, Except.ok.injEq] at made
      subst made
      rw [Value.length_data converted]
      exact gives values rfl

/-- In a state a value holds a native object, and a function of scripts is written to do with it what
is to be done. -/
structure Ready (a : Access) (s : StateId) (w : World) (o f : Ref) (n : NativeId) (native : Native)
    (thread : Ref) : Prop where
  running : (w.engine? s).map (·.running) = some thread
  holds : w.cell? o = some (.native n)
  there : w.native? n = some native
  written : ∃ c, w.cell? f = some (.closure c) ∧ a.Written c.body

theorem Ready.isOpen (ready : a.Ready s w o f n native thread) : w.isOpen s := by
  obtain ⟨e, engine, -⟩ := Option.map_eq_some_iff.mp ready.running
  simp [World.isOpen, engine]

theorem Ready.mirrors (ready : a.Ready s w o f n native thread) (mirrors : w.Mirrors w') :
    a.Ready s w' o f n native thread where
  running := (mirrors.running s).trans ready.running
  holds := mirrors.cell? ready.holds (by simp)
  there := (mirrors.native? n).trans ready.there
  written := ready.written.imp fun _ ⟨closure, written⟩ =>
    ⟨mirrors.cell? closure (by simp), written⟩

theorem gives_of_same {a' : Access} (same : a'.map Value.bare = a.map Value.bare) {k : Nat}
    (gives : a'.Gives k) : a.Gives k := by
  cases a <;> cases a' <;> first | exact gives | cases same

/-- An engine that runs the function carries out the object's operation once, on the same operands,
and the function ends with what that gives. -/
theorem runTo_task (ready : a.Ready s w o f n native thread) {w₀ : World} {data : List Datum}
    (made : a.operands.mapM (Value.datum w₀ s) = .ok data) :
    ∃ (a' : Access) (w₁ : World) (m : Machine) (before : World) (form : CallForm),
      a'.map Value.bare = a.map Value.bare ∧ w.Beside thread w₁ ∧ ¬ w₁.PlaceLost thread ∧
      m.thread = thread ∧ ∀ k given w₂, (a'.perform s n native).runTo k w₁ = (given, w₂) →
        (Script.runTask s (.call (.function f) (.userdata o :: data))).runTo k w =
          m.receive before form (asData s w₂ given) w₂ := by
  obtain ⟨c, closure, written⟩ := ready.written
  let m₀ : Machine :=
    { state := s, thread := thread, control := .call (.datum (.function f)) (.userdata o :: data) {} }
  obtain ⟨steps, few, m, w₁, walks, beside, state, here, alone, entered, waits, form, calls⟩ :=
    Machine.walks_to_native (m := m₀) written ready.isOpen closure ready.holds
      (Value.length_data made) rfl rfl
  have going : w.Beside thread (m.enterNative w₁ form) :=
    beside.trans (here ▸ m.enterNative_beside w₁ form)
  have inside := ready.mirrors going.mirrors
  obtain ⟨a', w₂, same, onward, alike, operation⟩ := runMember_becomes inside.holds inside.there made
  have place : ¬ w₂.PlaceLost thread := by
    have same : thread = m.thread := here.symm
    rw [alike.placeLost, ← (World.Alike.exit .values [] _).placeLost, same]
    exact m.keepsPlace_enterNative w₁ form
  refine ⟨a', w₂, m, w₁, form, same, going.trans (.of_alike onward alike), place, here,
    fun k given w₃ ran => ?_⟩
  obtain ⟨rest, enough⟩ : ∃ rest, Script.stepLimit = steps + (rest + 5 + 1) :=
    ⟨Script.stepLimit - steps - 6, by unfold Script.stepLimit; omega⟩
  have carried : (runMember m.state a.event (.userdata o :: data)).runTo k (m.enterNative w₁ form) =
      (asData s w₃ given, w₃) := by
    rw [state]
    exact (operation.runTo k).trans (runTo_performed ran)
  change (Script.startHere s _).runTo k w = _
  unfold Script.startHere
  rw [Action.runTo_view_bind, ready.running]
  change (m₀.run Script.stepLimit).runTo k w = _
  rw [enough, (walks.becomes _).runTo]
  refine Machine.runTo_native calls waits alone entered carried (fun data' converted => ?_) (by omega)
  refine gives_of_same same (gives_of_asData (fun values ok => ?_) converted)
  exact gives_of_perform (ok ▸ ran)

end Access

end ScriptBridge
