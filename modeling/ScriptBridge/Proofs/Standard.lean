import ScriptBridge.Proofs.Machine
import ScriptBridge.Script.Standard

/-!
The functions of the standard library lead to data of the state only.
-/

namespace ScriptBridge.Script

open ScriptBridge (Owned)
open ScriptBridge.Action (Respects)

namespace Course

/-- How a library function may end: it gives what satisfies a condition or fails within the
state. -/
def Ends (s : StateId) (Q : α → Prop) : Except Machine α → Prop
  | .ok a => Q a
  | .error m => m.Within s

def Keeps (s : StateId) (c : Course α) (Q : α → Prop) : Prop := c.run.Respects (Ends s Q)

namespace Keeps

variable {s : StateId} {P : α → Prop} {Q : β → Prop}

theorem pure {a : α} (holds : P a) : Keeps s (Pure.pure a) P := Respects.pure holds

theorem throw {m : Machine} (within : m.Within s) : Keeps s (MonadExcept.throw m : Course α) P :=
  Respects.pure within

theorem bind {c : Course α} {f : α → Course β} (first : Keeps s c P)
    (rest : ∀ a, P a → Keeps s (f a) Q) : Keeps s (c >>= f) Q := by
  refine Respects.bind first ?_
  rintro (m | a) ended
  · exact .pure ended
  · exact rest a ended

theorem lift {a : Action α} (respects : a.Respects P) : Keeps s (Course.lift a) P :=
  Respects.map respects fun _ holds => holds

theorem of_view {look : World → α} {f : α → Course β}
    (rest : ∀ w, w.Sound → Keeps s (f (look w)) Q) :
    Keeps s (Course.lift (.view look) >>= f) Q :=
  bind (P := fun a => Keeps s (f a) Q) (lift (.view rest)) fun _ keeps => keeps

theorem finish {c : Course Machine} (keeps : Keeps s c (Machine.Within s)) :
    c.finish.Respects (Machine.Within s) := by
  refine .bind keeps ?_
  rintro (m | m) ended
  · exact .pure ended
  · exact .pure ended

end Keeps

end Course

namespace Pattern

theorem find_owned {s : StateId} {source pattern : Bytes} {start : Nat} {data : List Datum}
    (matched : find source pattern start = .ok (some data)) : OwnedData s data := by
  have each (captures : List Capture) (text : Array UInt8) (data : List Datum)
      (all : captures.mapM (Capture.datum text) = .ok data) : OwnedData s data := by
    induction captures generalizing data with
    | nil =>
      obtain rfl := Except.ok.inj all
      simp
    | cons capture rest ih =>
      rw [List.mapM_cons] at all
      cases first : Capture.datum text capture with
      | error e => simp [first, bind, Except.bind] at all
      | ok d =>
        cases others : rest.mapM (Capture.datum text) with
        | error e => simp [first, others, bind, Except.bind] at all
        | ok found =>
          simp only [first, others, bind, Except.bind, pure, Except.pure, Except.ok.injEq] at all
          have plain : Owned s d.refs := by
            cases capture <;> simp [Capture.datum] at first <;> subst first <;> simp
          rw [← all]
          simpa using ⟨plain, ih found others⟩
  simp only [find, bind, Except.bind] at matched
  split at matched
  · simp at matched
  · split at matched
    · simp [pure, Except.pure] at matched
    · split at matched
      · simp only [pure, Except.pure, Except.ok.injEq, Option.some.injEq] at matched
        simp [← matched]
      · rename_i text e captures _ _
        cases all : captures.reverse.mapM (Capture.datum source.toArray) with
        | error e => simp [all, Functor.map, Except.map] at matched
        | ok found =>
          simp only [all, Functor.map, Except.map, Except.ok.injEq, Option.some.injEq] at matched
          exact matched ▸ each _ _ _ all

end Pattern

namespace Machine

open Course (Keeps)

variable {s : StateId} {m : Machine} (within : m.Within s) (c : Invocation)

section Checks

include within

theorem keeps_stop (message : String) {P : α → Prop} : Keeps s (m.stop c message) P :=
  .throw (within.fail _ _)

theorem within_pushSelf : (m.push (.builtin c.form.site c.title)).Within s :=
  within.push (by simp [Kont.refs])

theorem keeps_stopInside (message : String) {P : α → Prop} : Keeps s (m.stopInside c message) P :=
  .throw ((within_pushSelf within c).fail _ _)

theorem keeps_stopArgument (n : Nat) (extra : String) {P : α → Prop} :
    Keeps s (m.stopArgument c n extra) P :=
  keeps_stop within c _

theorem keeps_stopType (n : Nat) (expected : String) {P : α → Prop} :
    Keeps s (m.stopType c n expected) P := by
  unfold stopType
  extract_lets rest
  have going (found : String) : Keeps s (rest found) P := keeps_stopArgument within c _ _
  split
  · exact .of_view fun _ _ => going _
  · exact going _

variable (own : OwnedData s c.args)
include own

theorem keeps_checkAny (n : Nat) : Keeps s (m.checkAny c n) fun d => Owned s d.refs := by
  unfold checkAny
  split
  · rename_i found
    exact .pure (own.getElem? found)
  · exact keeps_stopArgument within c _ _

theorem keeps_checkTable (n : Nat) : Keeps s (m.checkTable c n) fun r => r.owner = s := by
  unfold checkTable
  split
  · rename_i found
    exact .pure (by simpa using own.getElem? found)
  · exact keeps_stopType within c _ _

theorem keeps_checkFunction (n : Nat) : Keeps s (m.checkFunction c n) fun d => Owned s d.refs := by
  unfold checkFunction
  split
  · rename_i found
    exact .pure (own.getElem? found)
  · exact keeps_stopType within c _ _

theorem keeps_checkThread (n : Nat) : Keeps s (m.checkThread c n) fun r => r.owner = s := by
  unfold checkThread
  split
  · rename_i found
    exact .pure (by simpa using own.getElem? found)
  · exact keeps_stopType within c _ _

omit own in
theorem keeps_checkText (n : Nat) : Keeps s (m.checkText c n) fun _ => True := by
  unfold checkText
  split
  · exact .pure trivial
  · exact keeps_stopType within c _ _

omit own in
theorem keeps_checkInt (n : Nat) : Keeps s (m.checkInt c n) fun _ => True := by
  unfold checkInt
  split
  · exact keeps_stopType within c _ _
  · split
    · exact .pure trivial
    · split
      · exact keeps_stopArgument within c _ _
      · exact keeps_stopType within c _ _

omit own in
theorem keeps_optInt (n : Nat) (default : Int) : Keeps s (m.optInt c n default) fun _ => True := by
  unfold optInt
  split
  · exact keeps_checkInt within c n
  · exact .pure trivial

omit within in
theorem arg_owned (n : Nat) : Owned s (c.arg n).refs := by
  unfold Invocation.arg
  cases found : c.arg? n with
  | some d => exact own.getElem? found
  | none => simp

end Checks

theorem readInBase_owned (base : Nat) (text : Bytes) : Owned s (readInBase base text).refs := by
  unfold readInBase
  dsimp only
  split
  · simp
  · simp

theorem metatableShown_owned {w : World} (isolated : w.Isolated) {d : Datum}
    (ownDatum : Owned s d.refs) : Owned s (metatableShown w s d).refs := by
  unfold metatableShown
  split
  · simp
  · split
    · simp
    · split
      · cases found : w.metatableOf s d with
        | some r => simpa using World.metatableOf_owned isolated ownDatum found
        | none => simp
      · exact World.metafield_owned isolated ownDatum _

section Functions

include within

theorem within_raiseAt {e : Datum} (ownError : Owned s e.refs) (level : Int) :
    (m.raiseAt c e level).Within s := by
  unfold raiseAt
  split
  · split
    · exact within.raise _ (by simp)
    · exact within.raise _ ownError
  · exact within.raise _ ownError

theorem keeps_newFunction {b : Builtin} (ownBuiltin : Owned s b.refs) :
    Keeps s (m.newFunction b) fun d => Owned s d.refs := by
  refine .bind (.lift (respects_allocate within fun _ => ownBuiltin)) fun r ownRef => ?_
  exact .pure (by simpa using ownRef)

theorem keeps_runRawlen : Keeps s (m.runRawlen c) (Within s) := by
  unfold runRawlen
  split
  · exact .pure (within.give (by simp))
  · exact .of_view fun _ _ => .pure (within.give (by simp))
  · exact keeps_stopType within c _ _

theorem keeps_runCollectgarbage : Keeps s (m.runCollectgarbage c) (Within s) := by
  have asked : Keeps s (Course.lift (.ask (.collect m.state))) fun _ => True :=
    .lift (.ask trivial fun _ _ _ _ => trivial)
  unfold runCollectgarbage
  extract_lets rest
  have going (option : Bytes) : Keeps s (rest option) (Within s) := by
    unfold rest
    split
    · exact .bind asked fun _ _ => .pure (within.give (by simp))
    · exact .bind asked fun _ _ => .pure (within.give (by simp))
    all_goals first
      | exact .pure (within.give (by simp))
      | exact keeps_stopArgument within c _ _
  split
  · exact .bind (keeps_checkText within c 1) fun option _ => going option
  · exact going _

theorem keeps_runSub : Keeps s (m.runSub c) (Within s) :=
  .bind (keeps_checkText within c 1) fun _ _ => .bind (keeps_checkInt within c 2) fun _ _ =>
    .bind (keeps_optInt within c 3 _) fun _ _ => .pure (within.give (by simp))

theorem keeps_runRep : Keeps s (m.runRep c) (Within s) := by
  refine .bind (keeps_checkText within c 1) fun text _ => ?_
  refine .bind (keeps_checkInt within c 2) fun n _ => ?_
  extract_lets count rest
  have going (separator : Bytes) : Keeps s (rest separator) (Within s) := by
    unfold rest
    dsimp only
    split
    · exact keeps_stop within c _
    · split
      · exact keeps_stopInside within c _
      · split
        · exact .pure (within.give (by simp))
        · exact .pure (within.give (by simp))
  split
  · exact .bind (keeps_checkText within c 3) fun separator _ => going separator
  · exact going []

variable (own : OwnedData s c.args)
include own

theorem keeps_runAssert : Keeps s (m.runAssert c) (Within s) := by
  unfold runAssert
  split
  · exact keeps_stopArgument within c _ _
  · rename_i v rest same
    rw [same, OwnedData.cons_iff] at own
    refine .pure ?_
    split
    · exact within.give (by simpa [same] using own)
    · refine within_raiseAt within c ?_ _
      cases rest with
      | nil => simp
      | cons d _ => exact own.2 d (by simp)

theorem keeps_runError : Keeps s (m.runError c) (Within s) :=
  .bind (keeps_optInt within c _ _) fun _ _ => .pure (within_raiseAt within c (arg_owned c own 1) _)

theorem keeps_runSelect : Keeps s (m.runSelect c) (Within s) := by
  unfold runSelect
  extract_lets count
  split
  · exact .pure (within.give (by simp))
  · refine .bind (keeps_checkInt within c _) fun n _ => ?_
    split
    · exact .pure (within.give (own.drop _))
    · split
      · exact .pure (within.give (own.drop _))
      · exact keeps_stopArgument within c _ _

theorem keeps_runTonumber : Keeps s (m.runTonumber c) (Within s) := by
  unfold runTonumber
  split
  · refine .bind (keeps_checkInt within c _) fun base _ => ?_
    split
    · split
      · refine .pure (within.give ?_)
        simpa using readInBase_owned _ _
      · exact keeps_stopArgument within c _ _
    · exact keeps_stopType within c _ _
  · refine .bind (keeps_checkAny within c own 1) fun d _ => .pure (within.give ?_)
    cases found : d.asNumber with
    | some n => simpa using number_owned (isNumber_of_asNumber found)
    | none => simp

theorem keeps_runNext : Keeps s (m.runNext c) (Within s) := by
  refine .bind (keeps_checkTable within c own 1) fun r ownRef => ?_
  refine .of_view fun w ⟨isolated, _⟩ => ?_
  split
  · rename_i k v found
    have ownEntry := Table.next_owned (isolated.tableAt_owned r) found
    rw [ownRef] at ownEntry
    exact .pure (within.give (by simpa using ownEntry))
  · exact .pure (within.give (by simp))
  · exact keeps_stopInside within c _

theorem keeps_runPairs : Keeps s (m.runPairs c) (Within s) := by
  refine .bind (keeps_checkAny within c own 1) fun d ownDatum => ?_
  refine .bind (.lift (respects_metamethod within ownDatum _)) fun found ownFound => ?_
  split
  · exact .pure ((within.push (by simp [Kont.refs])).call _ (ownFound _ rfl) (by simp [ownDatum]))
  · refine .bind (keeps_newFunction within (by simp [Builtin.refs])) fun next ownNext => ?_
    exact .pure (within.give (by simp [ownNext, ownDatum]))

theorem keeps_runIpairsStep : Keeps s (m.runIpairsStep c) (Within s) := by
  refine .bind (keeps_checkInt within c 2) fun i _ => ?_
  have waiting := (within_pushSelf within c).push (k := .ipairsValue (Int64.ofInt (i + 1)))
    (by simp [Kont.refs])
  exact .lift (respects_index waiting (arg_owned c own 1) (by simp) _ _)

theorem keeps_runSetmetatable : Keeps s (m.runSetmetatable c) (Within s) := by
  refine .bind (keeps_checkTable within c own 1) fun r ownRef => ?_
  extract_lets rest
  have going (metatable : Option Ref) (ownMeta : Owned s metatable.toList) :
      Keeps s (rest metatable) (Within s) := by
    refine .of_view fun w ⟨isolated, _⟩ => ?_
    split
    · exact keeps_stop within c _
    · refine .of_view fun w ⟨isolated, _⟩ => ?_
      have ownCell : Owned r.owner (Cell.table (w.tableAt r) metatable).refs :=
        Owned.append_iff.mpr ⟨isolated.tableAt_owned r, by rw [ownRef]; exact ownMeta⟩
      refine .bind (.lift (.act fun _ _ => ownCell)) fun _ _ => ?_
      exact .pure (within.give (by simpa using ownRef))
  split
  · exact going none (by simp)
  · rename_i t found
    exact going (some t) (by simpa using own.getElem? found)
  · exact .bind (keeps_stopType within c _ _) going

omit own in
theorem keeps_runMatch : Keeps s (m.runMatch c) (Within s) := by
  refine .bind (keeps_checkText within c 1) fun text _ => ?_
  refine .bind (keeps_checkText within c 2) fun pattern _ => ?_
  refine .bind (keeps_optInt within c 3 1) fun start _ => ?_
  extract_lets first
  split
  · exact .pure (within.give (by simp))
  · split
    · rename_i found matched
      exact .pure (within.give (Pattern.find_owned matched))
    · exact .pure (within.give (by simp))
    · exact keeps_stop within c _

omit own in
theorem keeps_runFloor : Keeps s (m.runFloor c) (Within s) := by
  unfold runFloor
  split
  · exact .pure (within.give (by simp))
  · split
    · refine .pure (within.give ?_)
      split
      · simp
      · simp
    · exact keeps_stopType within c _ _

omit own in
theorem within_refuse (wrapped : Bool) (message : String) :
    (m.refuse c wrapped message).Within s := by
  unfold refuse
  split
  · exact within.fail _ _
  · exact within.give (by simp)

omit own in
/-- The machine goes on in a coroutine of the same state, without frames of its own. -/
theorem respects_switchTo {r : Ref} (ownRef : r.owner = s) (wrapped : Bool) :
    (m.switchTo c r wrapped).Respects (Within s) := by
  refine .bind (respects_updateThread r (.onto (by simp)) (by simp [Progress.refs])) fun _ _ => ?_
  refine .bind (respects_updateThread m.thread (.waits · _) (by simp)) fun _ _ => ?_
  refine .bind (P := fun _ => True) (.act fun _ _ => ?_) fun _ _ => ?_
  · exact ownRef.trans within.state.symm
  refine .pure { within with thread := ownRef, konts := by simp, callers := ?_ }
  intro entry member
  rcases List.mem_cons.mp member with rfl | outer
  · exact ⟨within.thread, by simpa [Kont.refs] using within.konts⟩
  · exact within.callers entry outer

omit own in
theorem respects_resumeThread {r : Ref} (ownRef : r.owner = s) {args : List Datum}
    (ownArgs : OwnedData s args) (wrapped : Bool) :
    (m.resumeThread c r args wrapped).Respects (Within s) := by
  refine .bind (respects_progressOf ownRef) fun progress ownProgress => ?_
  split
  · rename_i body
    refine .bind (respects_switchTo within c ownRef wrapped) fun m within => ?_
    exact .pure (within.call _ (ownProgress _ rfl) ownArgs)
  · rename_i konts
    refine .bind (respects_switchTo within c ownRef wrapped) fun m within => ?_
    have ownKonts := Owned.flatMap_iff.mp (ownProgress _ rfl)
    exact .pure ((within.with_konts ownKonts).give ownArgs)
  · exact .pure (within_refuse within c _ _)
  · exact .pure (within_refuse within c _ _)

theorem keeps_runClose : Keeps s (m.runClose c) (Within s) := by
  refine .bind (keeps_checkThread within c own 1) fun r ownRef => ?_
  have closing : (updateThread r fun t => { t with progress := .ended none }).Respects
      fun _ => True :=
    respects_updateThread r (.onto (by simp)) (by simp [Progress.refs])
  refine .bind (P := fun found => ∀ p, found.2 = some p → Owned s p.refs) (.lift (.view ?_)) ?_
  · rintro w ⟨isolated, _⟩ progress found
    exact World.progressOf_owned isolated ownRef found
  · intro found ownProgress
    split
    · exact .bind (.lift closing) fun _ _ => .pure (within.give (by simp))
    · exact .bind (.lift closing) fun _ _ => .pure (within.give (by simp))
    · have ownFailure := ownProgress _ rfl
      refine .bind (.lift closing) fun _ _ => .pure (within.give ?_)
      simpa [Progress.refs] using ownFailure
    · exact keeps_stop within c _

omit within own in
theorem keeps_isMain : Keeps s m.isMain fun _ => True := .lift (.view fun _ _ => trivial)

theorem keeps_runYield : Keeps s (m.runYield c) (Within s) := by
  unfold runYield
  split
  · exact .pure (within.with_control (owned_refsOf.mpr own))
  · refine .bind (keeps_isMain) fun isMain _ => ?_
    split
    · exact keeps_stopInside within c _
    · exact keeps_stopInside within c _

omit own in
theorem keeps_runIsYieldable : Keeps s (m.runIsYieldable c) (Within s) := by
  unfold runIsYieldable
  split
  · split
    · exact .pure (within.give (by simp))
    · exact .of_view fun _ _ => .pure (within.give (by simp))
  · exact keeps_stopType within c _ _
  · exact .pure (within.give (by simp))

end Functions

include within in
/-- A function of the standard library gives what belongs to the state of its arguments. -/
theorem keeps_runStandard {function : Builtin} (ownFunction : Owned s function.refs)
    {args : List Datum} (own : OwnedData s args) (form : CallForm) :
    Keeps s (m.runStandard ⟨function, args, form⟩) (Within s) := by
  have self := within_pushSelf within ⟨function, args, form⟩
  have ownArg := arg_owned ⟨function, args, form⟩ own
  have any := keeps_checkAny within ⟨function, args, form⟩ own
  have table := keeps_checkTable within ⟨function, args, form⟩ own
  have callable := keeps_checkFunction within ⟨function, args, form⟩ own
  have thread := keeps_checkThread within ⟨function, args, form⟩ own
  cases function with
  | print =>
    cases args with
    | nil => exact .bind (.lift (.act fun _ _ => trivial)) fun _ _ => .pure (within.give (by simp))
    | cons d rest =>
      rw [OwnedData.cons_iff] at own
      have waiting := self.push (k := .printing [] rest) (owned_refsOf.mpr own.2)
      exact .lift (respects_showDatum waiting _ own.1)
  | type => exact .bind (any 1) fun _ _ => .pure (within.give (by simp))
  | tostring => exact .bind (any 1) fun d ownDatum => .lift (respects_showDatum self _ ownDatum)
  | tonumber => exact keeps_runTonumber within _ own
  | rawequal =>
    exact .bind (any 1) fun _ _ => .bind (any 2) fun _ _ => .pure (within.give (by simp))
  | rawlen => exact keeps_runRawlen within _
  | rawget =>
    refine .bind (table 1) fun r ownRef => .bind (any 2) fun key _ => ?_
    refine .of_view fun w ⟨isolated, _⟩ => .pure (within.give ?_)
    simpa [ownRef] using Table.get_owned (isolated.tableAt_owned r) key
  | rawset =>
    refine .bind (table 1) fun r ownRef => ?_
    refine .bind (any 2) fun key ownKey => .bind (any 3) fun value ownValue => ?_
    refine .bind (.lift (respects_rawAssign self ownRef ownKey ownValue none)) fun done ended => ?_
    split
    · exact .pure (within.give (by simpa using ownRef))
    · exact .pure ended
  | next => exact keeps_runNext within _ own
  | pairs => exact keeps_runPairs within _ own
  | ipairs =>
    refine .bind (any 1) fun d ownDatum => ?_
    refine .bind (keeps_newFunction within (by simp [Builtin.refs])) fun next ownNext => ?_
    exact .pure (within.give (by simp [ownNext, ownDatum]))
  | ipairsStep => exact keeps_runIpairsStep within _ own
  | select => exact keeps_runSelect within _ own
  | assert => exact keeps_runAssert within _ own
  | error => exact keeps_runError within _ own
  | pcall =>
    refine .bind (any 1) fun f ownF => ?_
    exact .pure ((within.push (by simp [Kont.refs])).call _ ownF (own.drop 1))
  | xpcall =>
    refine .bind (callable 2) fun handler ownHandler => ?_
    have waiting := within.push (k := .handledCall handler form.site) ownHandler
    exact .pure (waiting.call _ (ownArg 1) (own.drop 2))
  | setmetatable => exact keeps_runSetmetatable within _ own
  | getmetatable =>
    refine .bind (any 1) fun d ownDatum => .of_view fun w ⟨isolated, _⟩ => .pure (within.give ?_)
    simpa [within.state] using metatableShown_owned isolated ownDatum
  | collectgarbage => exact keeps_runCollectgarbage within _
  | coroutineCreate =>
    refine .bind (callable 1) fun f ownF => ?_
    exact .bind (.lift (respects_allocate within (.newThread ownF))) fun r ownRef =>
      .pure (within.give (by simpa using ownRef))
  | coroutineWrap =>
    refine .bind (callable 1) fun f ownF => ?_
    refine .bind (.lift (respects_allocate within (.newThread ownF))) fun r ownRef => ?_
    refine .bind (keeps_newFunction within (by simpa [Builtin.refs] using ownRef)) fun d own => ?_
    exact .pure (within.give (by simpa using own))
  | coroutineResume =>
    exact .bind (thread 1) fun r ownRef =>
      .lift (respects_resumeThread within _ ownRef (own.drop 1) false)
  | coroutineWrapped r =>
    have ownThread : r.owner = s := by simpa [Builtin.refs] using ownFunction
    exact .lift (respects_resumeThread within _ ownThread own true)
  | coroutineYield => exact keeps_runYield within _ own
  | coroutineStatus =>
    exact .bind (thread 1) fun r _ => .of_view fun _ _ => .pure (within.give (by simp))
  | coroutineIsYieldable => exact keeps_runIsYieldable within _
  | coroutineRunning =>
    refine .bind keeps_isMain fun isMain _ => .pure (within.give ?_)
    simpa using within.thread
  | coroutineClose => exact keeps_runClose within _ own
  | stringSub => exact keeps_runSub within _
  | stringRep => exact keeps_runRep within _
  | stringMatch => exact keeps_runMatch within _
  | mathFloor => exact keeps_runFloor within _
  | host | member => exact .pure (within.give (by simp))
  | missing name => exact keeps_stop within _ _

end Machine

end ScriptBridge.Script
