import ScriptBridge.Proofs.Machine
import ScriptBridge.Script.Evaluation

/-!
Evaluating expressions and running statements lead to data of the state only.
-/

namespace ScriptBridge.Script

open ScriptBridge (Owned)
open ScriptBridge.Action (Respects)

namespace Env

variable {s : StateId} {env : Env}

theorem owned_iff :
    Owned s env.refs ↔ (∀ v ∈ env.vars, v.2.owner = s) ∧ OwnedData s env.varargs := by
  simp only [Env.refs, Owned.append_iff, owned_refsOf]
  refine and_congr_left fun _ => ?_
  constructor
  · intro own v member
    exact own v.2 (List.mem_map_of_mem member)
  · intro own r member
    obtain ⟨v, there, rfl⟩ := List.mem_map.mp member
    exact own v there

theorem ref?_owned (own : Owned s env.refs) {name : String} {r : Ref}
    (found : env.ref? name = some r) : r.owner = s := by
  obtain ⟨v, there, rfl⟩ := Option.map_eq_some_iff.mp found
  exact (owned_iff.mp own).1 v (List.mem_of_find?_eq_some there)

theorem cons_owned (own : Owned s env.refs) (name : String) {r : Ref} (ownVar : r.owner = s) :
    Owned s { env with vars := (name, r) :: env.vars }.refs := by
  obtain ⟨vars, varargs⟩ := owned_iff.mp own
  exact owned_iff.mpr ⟨by simpa using ⟨ownVar, fun a b => vars (a, b)⟩, varargs⟩

end Env

namespace Machine

variable {s : StateId} {m : Machine} (within : m.Within s) {env : Env} (ownEnv : Owned s env.refs)

section Allocating

include within ownEnv

theorem respects_declare (names : List String) {values : List Datum} (own : OwnedData s values) :
    (m.declare env names values).Respects fun env => Owned s env.refs := by
  induction names generalizing env values with
  | nil => exact .pure ownEnv
  | cons name names ih =>
    have ownCell : Owned s (Cell.refs (.variable (values.headD .nil))) := by
      simpa [Cell.refs] using own.headD
    refine .bind (respects_allocate within fun _ => ownCell) fun r ownVar => ?_
    exact ih (Env.cons_owned ownEnv name ownVar) (own.drop 1)

theorem respects_closure (body : FunctionBody) :
    (m.closure body env).Respects fun d => Owned s d.refs := by
  refine .bind (respects_allocate within fun _ => ?_) fun r own => .pure (by simpa using own)
  intro r member
  simp only [Cell.refs, List.mem_map, List.mem_filterMap, Option.map_eq_some_iff] at member
  obtain ⟨_, ⟨name, -, found, there, rfl⟩, rfl⟩ := member
  exact Env.ref?_owned ownEnv there

end Allocating

theorem respects_globalTable (within : m.Within s) :
    m.globalTable.Respects fun d => Owned s d.refs := by
  refine .view fun w ⟨isolated, _⟩ => ?_
  rw [within.state]
  split
  · rename_i e found
    simpa using isolated.globals found
  · simp

theorem respects_variableAt {r : Ref} (own : r.owner = s) :
    (variableAt r).Respects fun d => Owned s d.refs := by
  refine .view fun w ⟨isolated, _⟩ => ?_
  split
  · rename_i found
    simpa [Cell.refs, own] using isolated.cell_owned found
  · simp

theorem tableEntries_owned (n : Nat) (slots : List Slot) {values : List Datum}
    (own : OwnedData s values) {k v : Datum} (member : (k, v) ∈ tableEntries n slots values) :
    Owned s k.refs ∧ Owned s v.refs := by
  fun_induction tableEntries n slots values with
  | case1 => simp at member
  | case2 n values =>
    obtain ⟨⟨item, i⟩, there, same⟩ := List.mem_map.mp member
    obtain ⟨rfl, rfl⟩ := Prod.mk.inj same
    exact ⟨by simp, own item (List.mem_of_getElem? (List.mem_zipIdx_iff_getElem?.mp there))⟩
  | case3 n slots values _ ih =>
    rcases List.mem_cons.mp member with first | later
    · obtain ⟨rfl, rfl⟩ := Prod.mk.inj first
      exact ⟨by simp, own.headD⟩
    · exact ih (own.drop 1) later
  | case4 n slots values ih =>
    rcases List.mem_cons.mp member with first | later
    · obtain ⟨rfl, rfl⟩ := Prod.mk.inj first
      exact ⟨own.headD, (own.drop 1).headD⟩
    · exact ih (own.drop 2) later

theorem respects_newTable (within : m.Within s) (slots : List Slot) {values : List Datum}
    (own : OwnedData s values) (site : Option Site) :
    (m.newTable slots values site).Respects (Within s) := by
  unfold newTable
  dsimp only
  split
  · exact .pure (within.fail _ _)
  · have content := Table.foldl_set_owned Table.owned_empty fun k v member =>
      tableEntries_owned 0 slots own member
    refine .bind (respects_allocate within fun _ => Owned.append_iff.mpr ⟨content, .nil⟩) ?_
    intro r ownRef
    exact .pure (within.give (by simpa using ownRef))

/-- The places of an assignment and what is left of its values belong to the state. -/
theorem places_owned (ownEnv : Owned s env.refs) (targets : List TargetForm) {values : List Datum}
    (own : OwnedData s values) :
    (∀ p ∈ (places env targets values).1, Owned s p.refs) ∧
      OwnedData s (places env targets values).2 := by
  fun_induction places env targets values with
  | case1 values => exact ⟨by simp, own⟩
  | case2 values name rest found left same r there ih =>
    have := ih own
    simp only [same] at this
    have ownVar := Env.ref?_owned ownEnv there
    exact ⟨by simpa [Place.refs] using ⟨ownVar, this.1⟩, this.2⟩
  | case3 values name rest found left same none ih =>
    have := ih own
    simp only [same] at this
    exact ⟨by simpa [Place.refs] using this.1, this.2⟩
  | case4 values name rest found left same ih =>
    have := ih own
    simp only [same] at this
    exact ⟨by simpa [Place.refs] using this.1, this.2⟩
  | case5 values object rest found left same ih =>
    have := ih (own.drop 2)
    simp only [same] at this
    refine ⟨List.forall_mem_cons.mpr ⟨?_, this.1⟩, this.2⟩
    exact Owned.append_iff.mpr ⟨own.headD, (own.drop 1).headD⟩

theorem assignments_owned {places : List Place} (ownPlaces : ∀ p ∈ places, Owned s p.refs)
    {values : List Datum} (own : OwnedData s values) {p : Place} {v : Datum}
    (member : (p, v) ∈ assignments places values) : Owned s p.refs ∧ Owned s v.refs := by
  induction places generalizing values with
  | nil => simp [assignments] at member
  | cons first rest ih =>
    rcases List.mem_cons.mp member with here | later
    · obtain ⟨rfl, rfl⟩ := Prod.mk.inj here
      exact ⟨ownPlaces _ (by simp), own.headD⟩
    · exact ih (fun p there => ownPlaces p (by simp [there])) (own.drop 1) later

section Running

include within ownEnv

theorem respects_store {pending : List (Place × Datum)}
    (own : ∀ p v, (p, v) ∈ pending → Owned s p.refs ∧ Owned s v.refs) (line : Nat) :
    (m.store pending env line).Respects (Within s) := by
  cases pending with
  | nil => exact .pure (within.give (by simp))
  | cons first rest =>
    obtain ⟨place, value⟩ := first
    obtain ⟨ownPlace, ownValue⟩ := own place value (by simp)
    have ownRest : Owned s (Kont.stores rest env line).refs := by
      refine Owned.append_iff.mpr ⟨Owned.flatMap_iff.mpr ?_, ownEnv⟩
      rintro ⟨p, v⟩ member
      simpa using own p v (by simp [member])
    have waiting := within.push ownRest
    unfold store
    dsimp only
    split
    · rename_i r
      refine .bind (.act fun _ _ => ?_) fun _ _ => .pure (waiting.give (by simp))
      have same : r.owner = s := by simpa [Place.refs] using ownPlace
      simpa [Op.Allowed, Op.Permitted, Cell.refs, same] using ownValue
    · refine .bind (respects_globalTable waiting) fun globals ownGlobals => ?_
      exact respects_assign waiting ownGlobals (by simp) ownValue _ _
    · simp only [Place.refs, Owned.append_iff] at ownPlace
      exact respects_assign waiting ownPlace.1 ownPlace.2 ownValue _ _

theorem respects_loopBlock (name : String) {value : Datum} (own : Owned s value.refs)
    (body : List Stmt) : (m.loopBlock name value body env).Respects (Within s) := by
  refine .bind (respects_declare within ownEnv [name] (by simpa using own)) fun inner ownInner => ?_
  exact .pure (within.execute body ownInner)

theorem respects_runIntegers (name : String) (current : Int64) (left : Nat) (step : Int64)
    (body : List Stmt) : (m.runIntegers name current left step body env).Respects (Within s) :=
  respects_loopBlock (within.push (by simpa [Kont.refs] using ownEnv)) ownEnv name (by simp) body

theorem respects_runFloats (name : String) (current limit step : Double) (body : List Stmt) :
    (m.runFloats name current limit step body env).Respects (Within s) := by
  unfold runFloats
  extract_lets goesOn
  split
  · exact respects_loopBlock (within.push (by simpa [Kont.refs] using ownEnv)) ownEnv name (by simp)
      body
  · exact .pure (within.give (by simp))

omit ownEnv in
theorem respects_failLoop (what : String) (d : Datum) (site : Option Site) :
    (m.failLoop what d site).Respects (Within s) :=
  .of_view fun _ _ => .pure (within.fail _ _)

theorem respects_startFor (start limit step : Datum) (name : String) (body : List Stmt)
    (site : Option Site) :
    (m.startFor start limit step name body env site).Respects (Within s) := by
  unfold startFor
  split
  · split
    · exact .pure (within.fail _ _)
    · split
      · exact respects_failLoop within _ _ _
      · split
        · exact respects_runIntegers within ownEnv _ _ _ _ _
        · exact .pure (within.give (by simp))
  · split
    · exact respects_failLoop within _ _ _
    · exact respects_failLoop within _ _ _
    · exact respects_failLoop within _ _ _
    · split
      · exact .pure (within.fail _ _)
      · exact respects_runFloats within ownEnv _ _ _ _ _

theorem within_iterate (names : List String) {f state control : Datum} (ownF : Owned s f.refs)
    (ownState : Owned s state.refs) (ownControl : Owned s control.refs) (body : List Stmt)
    (line : Nat) : (m.iterate names f state control body env line).Within s := by
  refine (within.push ?_).call _ ownF (by simp [ownState, ownControl])
  simp [Kont.refs, ownF, ownState, ownEnv]

/-- What a construct does with the values of its expressions. -/
theorem respects_finish (use : Use) {values : List Datum} (own : OwnedData s values) :
    (m.finish use values env).Respects (Within s) := by
  have ownFirst := own.headD
  have ownSecond := (own.drop 1).headD
  have ownThird := (own.drop 2).headD
  unfold finish
  dsimp only
  split
  · exact respects_binary within _ _ ownFirst ownSecond
  · exact respects_unary within _ _ ownFirst
  · exact respects_index within ownFirst ownSecond _ _
  · exact .pure (within.call _ ownFirst (own.drop 1))
  · have ownMethod := Owned.append_iff.mpr ⟨ownFirst, ownEnv⟩
    exact respects_index (within.push (k := .methodFound _ _ _ _ _ _) ownMethod) ownFirst
      (by simp) _ _
  · exact respects_newTable within _ own _
  · refine .bind (respects_declare within ownEnv _ own) fun inner ownInner => ?_
    exact .pure (within.execute _ ownInner)
  · rename_i targets line
    obtain ⟨ownPlaces, ownLeft⟩ := places_owned ownEnv targets own
    refine respects_store within ownEnv (fun p v member => ?_) line
    exact assignments_owned ownPlaces ownLeft (List.mem_reverse.mp member)
  · exact .pure (within.with_control (owned_refsOf.mpr own))
  · exact .pure (within.give (by simp))
  · split
    · exact .pure (within.with_control (by simp [Control.refs]))
    · exact .pure (within.give (by simp))
  · exact .pure (within.execute _ ownEnv)
  · exact respects_startFor within ownEnv _ _ _ _ _ _
  · exact .pure (within_iterate within ownEnv _ ownFirst ownSecond ownThird _ _)

theorem respects_gatherThen (exprs : List Expr) (use : Use) :
    (m.gatherThen exprs env use).Respects (Within s) := by
  cases exprs with
  | nil => exact respects_finish within ownEnv use (by simp)
  | cons e rest =>
    exact .pure ((within.push (by simpa [Kont.refs, refsOf] using ownEnv)).evaluate e ownEnv)

theorem respects_evaluateCall (e : Expr) (isTail : Bool) :
    (m.evaluateCall e env isTail).Respects (Within s) := by
  unfold evaluateCall
  split
  · exact respects_gatherThen within ownEnv _ _
  · exact respects_gatherThen within ownEnv _ _
  · exact .pure (within.evaluate _ ownEnv)

theorem respects_evaluateExpr (e : Expr) : (m.evaluateExpr e env).Respects (Within s) := by
  have waiting {k : Kont} (own : k.refs = env.refs ∨ k.refs = []) : (m.push k).Within s := by
    refine within.push ?_
    rcases own with same | none
    · rw [same]
      exact ownEnv
    · simp [none]
  cases e with
  | nil | bool | int | float | text => exact .pure (within.give (by simp))
  | varargs => exact .pure (within.give (Env.owned_iff.mp ownEnv).2)
  | var name outer =>
    simp only [evaluateExpr]
    split
    · rename_i r found
      refine .bind (respects_variableAt (Env.ref?_owned ownEnv found)) fun d own => ?_
      exact .pure (within.give (by simpa using own))
    · exact .pure (within.give (by simp))
  | global name =>
    refine .bind (respects_globalTable within) fun globals own => ?_
    exact respects_index within own (by simp) _ _
  | index | binary | unary => exact respects_gatherThen within ownEnv _ _
  | call callee args line => exact respects_evaluateCall within ownEnv (.call callee args line) _
  | method object name args line =>
    exact respects_evaluateCall within ownEnv (.method object name args line) _
  | function body =>
    refine .bind (respects_closure within ownEnv body) fun d own => ?_
    exact .pure (within.give (by simpa using own))
  | and left right | or left right => exact .pure ((waiting (.inl rfl)).evaluate left ownEnv)
  | single e => exact .pure ((waiting (.inr rfl)).evaluate e ownEnv)
  | table items line => exact respects_gatherThen within ownEnv _ _

theorem respects_executeStmt (stmt : Stmt) (rest : List Stmt) :
    (m.executeStmt stmt rest env).Respects (Within s) := by
  have waiting := within.push (k := .block rest env) ownEnv
  unfold executeStmt
  extract_lets m'
  split
  · exact respects_gatherThen waiting ownEnv _ _
  · exact respects_gatherThen within ownEnv _ _
  · exact respects_gatherThen waiting ownEnv _ _
  · rename_i name body
    have ownCell : Owned s (Cell.variable .nil).refs := by simp [Cell.refs]
    refine .bind (respects_allocate within fun _ => ownCell) fun r ownVar => ?_
    have ownInner := Env.cons_owned ownEnv name ownVar
    refine .bind (respects_closure within ownInner body) fun d own => ?_
    refine .bind (.act fun _ _ => ?_) fun _ _ => .pure (within.execute rest ownInner)
    simpa [Op.Allowed, Op.Permitted, Cell.refs, ownVar] using own
  · exact .pure (waiting.execute _ ownEnv)
  · rename_i body
    exact .pure ((waiting.push (k := .loop body env) ownEnv).execute _ ownEnv)
  · exact respects_gatherThen waiting ownEnv _ _
  · exact respects_gatherThen waiting ownEnv _ _
  · exact respects_gatherThen waiting ownEnv _ _
  · exact respects_gatherThen waiting ownEnv _ _
  · exact .pure (within.with_control (by simp [Control.refs]))
  · split
    · refine respects_evaluateCall (within.push ?_) ownEnv _ _
      simpa [Kont.refs, refsOf] using ownEnv
    · exact respects_gatherThen within ownEnv _ _
  · exact respects_gatherThen within ownEnv _ _

end Running

end Machine

end ScriptBridge.Script
