import ScriptBridge.Proofs.Access
import ScriptBridge.Proofs.Computed

/-!
Constructs of scripts one at a time: what an expression gives and where a statement leads as long as
nothing but the engine itself is at work, and how a task goes on after native code.
-/

namespace ScriptBridge.Script.Machine

variable {s : StateId} {m : Machine} {env env' : Env} {w w₁ w₂ w' : World} {n k : Nat}

/-- An expression gives data, whatever waits for them. -/
def Evaluates (s : StateId) (n : Nat) (e : Expr) (env : Env) (w : World) (data : List Datum)
    (w' : World) : Prop :=
  ∀ m : Machine, m.state = s → Walks n (m.evaluate e env) w (m.give data) w'

/-- A piece of code leads to another one in the same block. -/
def Executes (s : StateId) (n : Nat) (body : List Stmt) (env : Env) (w : World)
    (body' : List Stmt) (env' : Env) (w' : World) : Prop :=
  ∀ m : Machine, m.state = s → Walks n (m.execute body env) w (m.execute body' env') w'

/-- What a construct does when the last of its expressions has given its values. -/
theorem walks_finish {done values : List Datum} {use : Use} {m' : Machine}
    (goes : ((m.give values).finish use (done.reverse ++ values) env).straight w = some (m', w')) :
    Walks 1 ((m.push (.gather done [] env use)).give values) w m' w' :=
  .of_step rfl goes

/-- Two operands are evaluated one after the other. -/
theorem walks_operands {e e' : Expr} {a b : Datum} {use : Use} (same : m.state = s)
    (first : Evaluates s n e env w [a] w₁) (second : Evaluates s k e' env w₁ [b] w₂) :
    Walks (n + (k + 1)) ((m.push (.gather [] [e'] env use)).evaluate e env) w
      ((m.push (.gather [a] [] env use)).give [b]) w₂ :=
  .trans (first (m.push _) same) (.step rfl (second (m.push _) same))

namespace Evaluates

theorem var {name : String} {value : Datum} (reads : w.Reads env name value) (outer : Bool) :
    Evaluates s 1 (.var name outer) env w [value] w :=
  fun _ _ => walks_variable rfl reads

theorem nil : Evaluates s 1 .nil env w [.nil] w := fun _ _ => .one rfl

theorem int (i : Int64) : Evaluates s 1 (.int i) env w [.int i] w := fun _ _ => .one rfl

theorem text (t : Bytes) : Evaluates s 1 (.text t) env w [.text t] w := fun _ _ => .one rfl

theorem binary {op : BinaryOp} {left right : Expr} {a b : Datum} {data : List Datum} {line : Nat}
    (first : Evaluates s n left env w [a] w₁) (second : Evaluates s k right env w₁ [b] w₂)
    (gives : ∀ m : Machine, m.state = s →
      (m.binary op ⟨a, left.describe⟩ ⟨b, right.describe⟩ (env.site line)).straight w₂ =
        some (m.give data, w')) :
    Evaluates s (n + (k + 1) + 1 + 1) (.binary op left right line) env w data w' :=
  fun m same =>
    .trans (.step rfl (walks_operands same first second)) (walks_finish (gives (m.give _) same))

theorem index {object key : Expr} {a b : Datum} {data : List Datum} {line : Nat}
    (first : Evaluates s n object env w [a] w₁) (second : Evaluates s k key env w₁ [b] w₂)
    (gives : ∀ m : Machine, m.state = s →
      (m.index a b object.describe (env.site line)).straight w₂ = some (m.give data, w')) :
    Evaluates s (n + (k + 1) + 1 + 1) (.index object key line) env w data w' := by
  intro m same
  refine .trans (.step rfl (walks_operands same first second)) (walks_finish ?_)
  unfold finish
  exact gives (m.give _) same

/-- A global variable that holds something is looked up past metamethods. -/
theorem global {e : Engine} {name : String} {content : Table} {metatable : Option Ref}
    (engine : w.engine? s = some e) (globals : w.cell? e.globals = some (.table content metatable))
    (present : content.get (.str name) ≠ .nil) :
    Evaluates s 1 (.global name) env w [content.get (.str name)] w := by
  rintro m rfl
  have looks : ((m.evaluate (.global name) env).evaluateExpr (.global name) env).straight w =
      some (m.give [content.get (.str name)], w) := by
    unfold evaluateExpr globalTable
    simp only [Action.straight_bind, Action.straight_view, Option.bind_some]
    rw [show w.engine? (m.evaluate (.global name) env).state = some e from engine]
    exact straight_index_present globals present none none
  exact .of_step rfl looks

/-- A function with the variables of its surroundings that it uses. -/
theorem function (body : FunctionBody) {r : Ref}
    (made : w.allocate s (.closure ⟨body,
      body.captures.filterMap fun name => (env.ref? name).map (name, ·), env.chunk⟩) = (r, w')) :
    Evaluates s 1 (.function body) env w [.function r] w' := by
  rintro m rfl
  have first := congrArg Prod.fst made
  have second := congrArg Prod.snd made
  dsimp only at first second
  subst first second
  exact .one rfl

end Evaluates

/-- A call with one argument gets to what is called. -/
theorem walks_to_call {callee arg : Expr} {f a : Datum} {l : Nat} (same : m.state = s)
    (first : Evaluates s n callee env w [f] w₁) (second : Evaluates s k arg env w₁ [a] w') :
    Walks (n + (k + 1) + 1 + 1) (m.evaluate (.call callee [arg] l) env) w
      (m.call (.datum f) [a] { site := env.site l, callee := callee.describe }) w' :=
  .trans (.step rfl (walks_operands same first second)) (walks_finish rfl)

/-- What the library function `type` gives. -/
theorem Evaluates.type {callee arg : Expr} {r : Ref} {d : Datum} {line : Nat}
    (first : Evaluates s n callee env w [.function r] w₁) (second : Evaluates s k arg env w₁ [d] w')
    (function : w'.cell? r = some (.builtin .type)) :
    Evaluates s (n + (k + 1) + 1 + 1 + 1) (.call callee [arg] line) env w [.str d.typeName] w' := by
  intro m same
  let form : CallForm := { site := env.site line, callee := callee.describe }
  let called := m.call (.datum (.function r)) [d] form
  have enters : (called.enterCall (.datum (.function r)) [d] form).straight w' =
      some (m.give [.str d.typeName], w') := by
    unfold enterCall
    simp only [Action.straight_bind, Action.straight_view, Option.bind_some, function]
    rfl
  exact (walks_to_call same first second).trans (.of_step rfl enters)

/-- A local variable is declared with its value. -/
theorem walks_declare (env : Env) (isOpen : w.isOpen s) (name : String) (d : Datum) (rest : List Stmt) :
    ∃ env' w', (∀ m : Machine, m.state = s →
        Walks 1 ((m.push (.gather [] [] env (.locals [name] rest))).give [d]) w
          (m.execute rest env') w') ∧ w.Mirrors w' ∧ w'.Reads env' name d ∧
      ∀ other ≠ name, env'.ref? other = env.ref? other := by
  let made := w.allocate s (.variable d)
  refine ⟨{ env with vars := (name, made.1) :: env.vars }, made.2, ?_, .allocate .., ?_, ?_⟩
  · rintro m rfl
    exact walks_finish rfl
  · exact ⟨made.1, by simp [Env.ref?], World.cell?_allocate isOpen _⟩
  · intro other differs
    simp [Env.ref?, differs.symm]

namespace Executes

variable {rest : List Stmt}

theorem assign {name : String} {outer : Bool} {e : Expr} {d : Datum} {line : Nat} {r : Ref}
    (value : Evaluates s n e env w [d] w') (ref : env.ref? name = some r) :
    Executes s (n + 1 + 3) (.assign [.var name outer] [e] line :: rest) env w rest env
      (w'.write r (.variable d)) := by
  intro m same
  refine .trans (.step rfl (value ((m.push (.block rest env)).push _) same)) ?_
  let stored := (m.push (.block rest env)).push (.stores [] env line)
  have stores : (finish ((m.push (.block rest env)).give [d]) (.assign [.var name] line) [d]
      env).straight w' = some (stored.give [], w'.write r (.variable d)) := by
    unfold finish
    simp only [places, ref, assignments, store, List.headD_cons, List.reverse_cons, List.reverse_nil,
      List.nil_append]
    rfl
  exact (walks_finish stores).trans (.step rfl (.one rfl))

theorem locals {name : String} {e : Expr} {d : Datum} (value : Evaluates s n e env w [d] w₁)
    (isOpen : w₁.isOpen s) : ∃ env' w', Executes s (n + 1 + 1) (.locals [name] [e] :: rest) env w
      rest env' w' ∧ w₁.Mirrors w' ∧ w'.Reads env' name d ∧
        ∀ other ≠ name, env'.ref? other = env.ref? other := by
  obtain ⟨env', w', declares, others⟩ := walks_declare env isOpen name d rest
  exact ⟨env', w', fun m same => .trans (.step rfl (value (m.push _) same)) (declares m same),
    others⟩

end Executes

/-- A condition decides which block runs. -/
theorem walks_conditional {condition : Expr} {thenBody elseBody rest : List Stmt} {d : Datum}
    (same : m.state = s) (value : Evaluates s n condition env w [d] w') :
    Walks (n + 1 + 1) (m.execute (.conditional condition thenBody elseBody :: rest) env) w
      ((m.push (.block rest env)).execute (if d.isTrue then thenBody else elseBody) env) w' :=
  .trans (.step rfl (value ((m.push (.block rest env)).push _) same)) (walks_finish rfl)

/-- After a block that has come to its end, the code goes on that it stands in. -/
theorem walks_blockEnd {rest : List Stmt} :
    Walks 2 ((m.push (.block rest env)).execute [] env') w (m.execute rest env) w :=
  .step rfl (.one rfl)

/-- A function that has come to its end without a result. -/
theorem walks_functionEnd {caller : Option Site} {title : String} :
    Walks 2 ((m.push (.activation caller title)).execute [] env) w (m.give []) w :=
  .step rfl (.one rfl)

/-- A function that returns what an expression gives. -/
theorem walks_returns {e : Expr} {d : Datum} {caller : Option Site} {title : String}
    (same : m.state = s) (plain : e.isCall = false) (value : Evaluates s n e env w [d] w') :
    Walks (n + 1 + 2) ((m.push (.activation caller title)).execute [.returns [e]] env) w
      (m.give [d]) w' := by
  let inside := m.push (.activation caller title)
  have begins : (inside.execute [.returns [e]] env).step.straight w =
      some (.continue ((inside.push (.gather [] [] env .returns)).evaluate e env), w) := by
    change Action.straight (Next.continue <$> (if e.isCall then _ else _)) w = _
    rw [if_neg (by simp [plain])]
    rfl
  refine .trans (.step begins (value (inside.push _) same)) ?_
  exact .trans (n := 1) (walks_finish rfl) (.one rfl)

/-- A function that returns what two expressions give, with the first one evaluated. -/
theorem walks_to_second {e e' : Expr} {d : Datum} (same : m.state = s)
    (value : Evaluates s n e env w [d] w') :
    Walks (n + 1 + 1) (m.execute [.returns [e, e']] env) w
      ((m.push (.gather [d] [] env .returns)).evaluate e' env) w' :=
  .trans (.step rfl (value (m.push _) same)) (.one rfl)

/-- To read a member of a native object leads to its operation. -/
theorem walks_to_member {n k : Nat} {object key : Expr} {r : Ref} {d : Datum} {i : NativeId}
    {l : Nat} {w₁ : World} (same : m.state = s)
    (first : Evaluates s n object env w [.userdata r] w₁)
    (second : Evaluates s k key env w₁ [d] w') (holds : w'.cell? r = some (.native i)) :
    Walks (n + (k + 1) + 1 + 1) (m.evaluate (.index object key l) env) w
      ((m.push .single).callMetamethod (.member .index) "__index" [.userdata r, d] (env.site l))
      w' := by
  refine .trans (.step rfl (walks_operands same first second)) (walks_finish ?_)
  unfold finish
  exact straight_index holds d _ _

/-- Native code from which a task goes on to a result has succeeded. -/
theorem CallsNative.of_run_ok {form : CallForm} {body : Action CallbackResult}
    (calls : m.CallsNative w form body) (spared : ∀ f ∈ m.konts, f.catches = false)
    (alone : m.callers = []) (entered : m.isResumed = false) {k : Nat} {data : List Datum}
    (ends : Ends (m.run (k + 1)) w (.ok (.ok data)) w') : ∃ given v v' w₁, w.Mirrors v ∧
      Ends body v (.ok (.ok given)) v' ∧ v'.Mirrors w₁ ∧
        Ends ((m.give given).run k) w₁ (.ok (.ok data)) w' := by
  have fails {e : EngineError} {w₁ : World}
      (ends : Ends ((m.goOn form (.error e)).run k) w₁ (.ok (.ok data)) w') : False := by
    cases k with
    | zero => cases (Ends.fail_iff.mp ends).1
    | succ k =>
      cases ((Ends.straight_iff (straight_raise (m := m.goOn form (.error e)) rfl spared alone
        entered)).mp ends).1
  obtain ⟨next, w₁, first, rest⟩ := Ends.of_bind_ok ends
  obtain ⟨_ | m₁, native, same⟩ := Ends.map_iff.mp (calls.step_iff.mp first)
  · cases same
  cases same
  obtain ⟨inner, w₀, body, received⟩ := callNative_iff.mp native
  obtain ⟨same, rfl⟩ := Prod.ext_iff.mp received
  rcases inner with (e | _) | e | given
  · cases same
    exact (fails rest).elim
  · cases same
  · cases same
    exact (fails rest).elim
  · cases same
    exact ⟨given, _, w₀, _, (m.enterNative_beside w form).mirrors, body,
      (m.receive_beside w form (.ok (.ok given)) w₀).mirrors, rest⟩

/-- A task that calls a function and gets to a result has run the function in the engine of a state
that is open. -/
theorem of_runTask_call {f : Ref} {args data : List Datum}
    (ends : Ends (Script.runTask s (.call (.function f) args)) w (.ok (.ok data)) w') :
    ∃ thread, w.isOpen s ∧ Ends (run Script.stepLimit
      { state := s, thread := thread, control := .call (.datum (.function f)) args {} }) w
        (.ok (.ok data)) w' := by
  change Ends (Script.startHere s _) w _ w' at ends
  unfold Script.startHere at ends
  rw [Ends.view_bind_iff] at ends
  cases running : (w.engine? s).map (·.running) with
  | none =>
    rw [running] at ends
    cases (Ends.pure_iff.mp ends).1
  | some thread =>
    rw [running] at ends
    obtain ⟨e, engine, -⟩ := Option.map_eq_some_iff.mp running
    exact ⟨thread, by simp [World.isOpen, engine], ends⟩

/-- Reading a member of a native object in its engine, with the result as a datum. -/
theorem of_runMember_index {r : Ref} {n : NativeId} {native : Native}
    (holds : w.cell? r = some (.native n)) (there : w.native? n = some native) {name : String}
    {data : List Datum}
    (ends : Ends (Script.runMember s .index [.userdata r, .str name]) w (.ok (.ok data)) w') :
    ∃ w₁ v d, w.Mirrors w₁ ∧ Ends (native.index s (.text name)) w₁ (.ok v) w' ∧
      v.datum w' s = .ok d ∧ data = [d] := by
  have made : (Access.index (.text name)).operands.mapM (Value.datum w s) = .ok [.str name] := rfl
  obtain ⟨a, w₁, same, mirrors, -, operation⟩ := Access.runMember_becomes holds there made
  obtain ⟨given, performs, converts⟩ := Access.performed_iff.mp (operation.ends.mp ends)
  cases a with
  | index key =>
    obtain rfl : key = .text name := by
      cases key <;> simp_all [Access.map, Value.bare]
    obtain ⟨_ | v, reads, rfl⟩ := Ends.map_iff.mp performs
    · cases converts
    · change Except.ok (Except.ok data) = Access.asData s w' (.ok [v]) at converts
      cases shown : [v].mapM (Value.datum w' s) with
      | error => simp [Access.asData, shown] at converts
      | ok =>
        obtain ⟨d, _, shows, rest, rfl⟩ := Value.data_cons.mp shown
        obtain rfl := Value.data_nil.mp rest
        refine ⟨w₁, v, d, mirrors, reads, shows, ?_⟩
        simpa [Access.asData, shown] using converts
  | assign | call => cases same

end ScriptBridge.Script.Machine
