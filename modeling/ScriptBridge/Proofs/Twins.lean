import ScriptBridge.Native.Operations
import ScriptBridge.Proofs.Disposal
import ScriptBridge.Proofs.Resemblance

/-!
Worlds that resemble each other while nothing is new in their heaps look the same to the host: it
finds the same objects behind values, chooses the same members, and shows the same.
-/

namespace ScriptBridge

open Script (Cell Datum Table Thread)

namespace World

/-- Worlds that resemble each other, with certain native functions that wait in the coroutine of the
second one. -/
structure Twins (b : World) (thread : Ref) (waiting : Option Thread) (news : List Counterpart)
    (w w' : World) : Prop extends b.Resembles thread news w w' where
  waits : w'.thread? thread = waiting

namespace Twins

variable {b w w₁ w' w₁' : World} {thread : Ref} {waiting : Option Thread} {news : List Counterpart}

theorem rebooked (twins : b.Twins thread waiting news w w') (left : w.Rebooked w₁)
    (right : w'.Rebooked w₁') : b.Twins thread waiting news w₁ w₁' :=
  ⟨twins.toResembles.rebooked left right, by rw [right.alike.thread?, twins.waits]⟩

theorem of_host (twins : b.Twins thread waiting news w w') (left : w₁.engines = w.engines)
    (right : w₁'.engines = w'.engines) (host : w₁'.host = w₁.host) :
    b.Twins thread waiting news w₁ w₁' := by
  refine ⟨twins.toResembles.of_host left right host, ?_⟩
  rw [← twins.waits]
  simp only [thread?, cell?, engine?, right]

theorem enter (twins : b.Twins thread waiting news w w') (s : Scope) :
    b.Twins thread waiting news (s.enter w) (s.enter w') :=
  twins.rebooked (.enter s w) (.enter s w')

theorem exit (twins : b.Twins thread waiting news w w') (s : Scope) (held held' : List Handle) :
    b.Twins thread waiting news (s.exit held w) (s.exit held' w') :=
  twins.rebooked (.exit s held w) (.exit s held' w')

theorem allocate (twins : b.Twins thread waiting news w w') {s : StateId} (isOpen : b.isOpen s)
    {kind : HandleKind} {c c' : Cell} (like : Cell.Like news kind c c') :
    b.Twins thread waiting (⟨kind, (w.allocate s c).1, (w'.allocate s c').1⟩ :: news)
      (w.allocate s c).2 (w'.allocate s c').2 := by
  refine ⟨twins.toResembles.allocate isOpen like, ?_⟩
  have open' : w'.isOpen s := by rwa [twins.isOpen, twins.isOpen_first]
  rw [← twins.waits]
  unfold thread?
  by_cases new : thread = (w'.allocate s c').1
  · rw [new, cell?_allocate open', (w'.fresh_allocate s c').cell?]
    cases like <;> rfl
  · rw [cell?_allocate_of_ne new]

theorem write (twins : b.Twins thread waiting news w w') {r r' : Ref}
    (new : ⟨.table, r, r'⟩ ∈ news) {content content' content₀ content₀' : Table}
    (found : w.cell? r = some (.table content₀ none))
    (found' : w'.cell? r' = some (.table content₀' none))
    (like : Cell.Like news .table (.table content none) (.table content' none)) :
    b.Twins thread waiting news (w.write r (.table content none))
      (w'.write r' (.table content' none)) := by
  refine ⟨twins.toResembles.write new found found' like, ?_⟩
  rw [← twins.waits]
  unfold thread?
  by_cases here : thread = r'
  · rw [cell?_write, if_pos here, here, found']
    rfl
  · rw [cell?_write, if_neg here]

theorem cacheWrapper (twins : b.Twins thread waiting news w w') (s : StateId) (o : ObjectId)
    {r r' : Ref} (stands : b.Stands news r r') :
    b.Twins thread waiting news (w.cacheWrapper s o r) (w'.cacheWrapper s o r') := by
  refine ⟨twins.toResembles.cacheWrapper s o stands, ?_⟩
  rw [← twins.waits]
  unfold thread?
  rw [cell?_cacheWrapper]

theorem same_host (twins : b.Twins thread waiting news w w') {γ : Type} (look : World → γ)
    (blind : ∀ w, look w.host = look w) : look w' = look w := by
  rw [← blind w', twins.host, blind]

/-- Arguments fit the same parameters if each of them does. -/
theorem fits {check : World → HostType → Value → Bool}
    (one : ∀ t {v v' : Value}, v'.bare = v.bare → check w' t v' = check w t v)
    (params : List HostType) {args args' : List Value} (same : args'.map Value.bare = args.map Value.bare) :
    ScriptBridge.fits (check w') params args' = ScriptBridge.fits (check w) params args := by
  have length : args'.length = args.length := by simpa using congrArg List.length same
  unfold ScriptBridge.fits
  rw [length]
  congr 1
  induction params generalizing args args' with
  | nil => rfl
  | cons t params ih =>
    cases args with
    | nil => cases args' with
      | nil => rfl
      | cons => cases same
    | cons v rest => cases args' with
      | nil => cases same
      | cons v' rest' =>
        obtain ⟨first, others⟩ := List.cons_eq_cons.mp same
        rw [List.zip_cons_cons, List.zip_cons_cons, List.all_cons, List.all_cons,
          ih others (by simpa using length)]
        exact congrArg (· && _) (one t first)

section Looking

variable (twins : b.Twins thread waiting [] w w')
include twins

/-- A place holds the same in both worlds, but for what waits in the coroutine and for variables. -/
theorem cell? (r : Ref) : w'.cell? r = w.cell? r ∨
    (r = thread ∧ ∃ t t', w.cell? r = some (.thread t) ∧ w'.cell? r = some (.thread t')) ∨
    (w.cell? r = none ∧ ∃ d, w'.cell? r = some (.variable d)) := by
  have left : w.cell? r = b.cell? r := (twins.first r).resolve_right (by simp)
  rw [left]
  rcases (twins.second r).resolve_right (by simp) with same | ⟨here, quiet⟩ | ⟨fresh, made⟩
  · exact .inl same
  · cases before : b.cell? r with
    | none =>
      rw [before] at quiet
      exact .inl (Option.map_eq_none_iff.mp quiet)
    | some c =>
      rw [before] at quiet
      obtain ⟨c', after, same⟩ := Option.map_eq_some_iff.mp quiet
      rw [after]
      cases c with
      | thread t =>
        cases c' with
        | thread t' => exact .inr (.inl ⟨here, t, t', rfl, rfl⟩)
        | _ => cases same
      | _ =>
        cases c' with
        | thread t' => cases same
        | _ => exact .inl (congrArg some same)
  · exact .inr (.inr ⟨fresh.cell?, _, made⟩)

/-- Neither coroutines nor variables are what the host looks for in a heap. -/
theorem look_cell? {γ : Type} (look : Option Cell → γ)
    (quiet : ∀ t, look (some (.thread t)) = look none)
    (declared : ∀ d, look (some (.variable d)) = look none) (r : Ref) :
    look (w'.cell? r) = look (w.cell? r) := by
  rcases twins.cell? r with same | ⟨-, t, t', found, found'⟩ | ⟨free, d, made⟩
  · rw [same]
  · rw [found, found', quiet, quiet]
  · rw [free, made, declared]

theorem table?_cell? (r : Ref) : (w'.cell? r).bind Cell.table? = (w.cell? r).bind Cell.table? :=
  twins.look_cell? (·.bind Cell.table?) (fun _ => rfl) (fun _ => rfl) r

theorem tableAt (r : Ref) : w'.tableAt r = w.tableAt r := by
  rw [tableAt_eq_table?, tableAt_eq_table?, twins.table?_cell?]

theorem table_of_table {r : Ref} {content : Table} {metatable : Option Ref}
    (found : w.cell? r = some (.table content metatable)) :
    w'.cell? r = some (.table content metatable) := by
  have same := twins.table?_cell? r
  rw [found] at same
  obtain ⟨c, found', is⟩ := Option.bind_eq_some_iff.mp same
  rw [found', Cell.table?_eq_some is]

theorem native?_cell? (r : Ref) : (w'.cell? r).bind Cell.native? = (w.cell? r).bind Cell.native? :=
  twins.look_cell? (·.bind Cell.native?) (fun _ => rfl) (fun _ => rfl) r

theorem nativeId? {v v' : Value} (same : v'.bare = v.bare) : w'.nativeId? v' = w.nativeId? v := by
  have blind : w'.nativeId? v' = w'.nativeId? v := Value.congr_bare (f := w'.nativeId?) (fun _ _ _ => rfl) same
  rw [blind]
  cases v with
  | handle h =>
    obtain ⟨kind, r, a⟩ := h
    cases kind with
    | userdata => rw [nativeId?_userdata, nativeId?_userdata, twins.native?_cell?]
    | _ => rfl
  | _ => rfl

theorem native? (n : NativeId) : (w'.native? n).map Native.bare = (w.native? n).map Native.bare := by
  rw [← native?_host, ← native?_host, twins.host]

theorem nativeOf? {v v' : Value} (same : v'.bare = v.bare) :
    (w'.nativeOf? v').map Native.bare = (w.nativeOf? v).map Native.bare := by
  rw [World.nativeOf?, World.nativeOf?, twins.nativeId? same, Option.map_bind, Option.map_bind]
  exact congrArg _ (funext twins.native?)

theorem hostObject? {v v' : Value} (same : v'.bare = v.bare) :
    w'.hostObject? v' = w.hostObject? v := by
  have look (native : Option Native) :
      native.bind Native.wrapped? = (native.map Native.bare).bind Native.wrapped? := by
    simp only [Option.bind_map, Function.comp_def, Native.wrapped?_bare]
  rw [hostObject?_eq_wrapped?, hostObject?_eq_wrapped?, look, twins.nativeOf? same, ← look]

theorem accepts (t : HostType) {v v' : Value} (same : v'.bare = v.bare) :
    t.accepts w' v' = t.accepts w v := by
  have isNil : v'.isNil = v.isNil := Value.congr_bare (fun _ _ _ => rfl) same
  have some_native : (w'.nativeOf? v').isSome = (w.nativeOf? v).isSome := by
    have := congrArg Option.isSome (twins.nativeOf? same)
    simpa using this
  have plain (t : HostType) (look : ∀ v, t.accepts w' v = t.accepts w v)
      (blind : ∀ kind r a, t.accepts w (.handle ⟨kind, r, a⟩) = t.accepts w (.handle ⟨kind, r, 0⟩)) :
      t.accepts w' v' = t.accepts w v :=
    (look v').trans (Value.congr_bare blind same)
  cases t with
  | object => simp only [HostType.accepts, isNil, twins.hostObject? same]
  | native => simp only [HostType.accepts, isNil, some_native]
  | bool | int | double | string => exact plain _ (fun _ => rfl) fun _ _ _ => rfl
  | list => exact plain _ (fun _ => rfl) fun kind _ _ => by cases kind <;> rfl
  | void | variant => rfl

theorem acceptsExactly (t : HostType) {v v' : Value} (same : v'.bare = v.bare) :
    t.acceptsExactly w' v' = t.acceptsExactly w v := by
  have whole := twins.accepts t same
  rcases Value.cases_of_bare same with rfl | ⟨kind, r, a, a', rfl, rfl⟩
  · unfold HostType.acceptsExactly
    split <;> first | rfl | exact whole
  · cases t <;> exact whole

/-- The same candidate is chosen. -/
theorem selectOverload {α : Type} (params : α → List HostType) (candidates : List α)
    {args args' : List Value} (same : args'.map Value.bare = args.map Value.bare) :
    ScriptBridge.selectOverload w' params candidates args' =
      ScriptBridge.selectOverload w params candidates args := by
  have exactly (c : α) : ScriptBridge.fits (HostType.acceptsExactly w') (params c) args' =
      ScriptBridge.fits (HostType.acceptsExactly w) (params c) args :=
    fits (fun t => twins.acceptsExactly t) (params c) same
  have loosely (c : α) : ScriptBridge.fits (HostType.accepts w') (params c) args' =
      ScriptBridge.fits (HostType.accepts w) (params c) args :=
    fits (fun t => twins.accepts t) (params c) same
  simp only [ScriptBridge.selectOverload, exactly, loosely]

theorem running (s : StateId) :
    (w'.engine? s).map (·.running) = (w.engine? s).map (·.running) ∧
      (w.engine? s).map (·.running) = (b.engine? s).map (·.running) := by
  have look (w : World) : (w.engine? s).map (·.running) =
      ((w.engine? s).map Engine.core).map (·.running) := by
    rw [Option.map_map]
    rfl
  rw [look, look, look, (twins.engines s).1, (twins.engines s).2]
  exact ⟨rfl, rfl⟩

/-- The coroutine in which a script is at work runs in both worlds; of others nothing is different. -/
theorem threadState (runs : (b.engine? thread.owner).map (·.running) = some thread) (r : Ref) :
    w'.threadState r = w.threadState r := by
  obtain ⟨same, before⟩ := twins.running r.owner
  unfold World.threadState
  rw [same]
  split
  · rfl
  · rename_i rests
    have others : w'.thread? r = w.thread? r := by
      unfold World.thread?
      rcases twins.cell? r with same | ⟨rfl, -⟩ | ⟨free, d, made⟩
      · rw [same]
      · exact absurd (before.trans runs) rests
      · rw [free, made]
    rw [others]

theorem native_iff (r : Ref) (n : NativeId) :
    w'.cell? r = some (.native n) ↔ w.cell? r = some (.native n) :=
  Eq.to_iff (twins.look_cell? (· = some (.native n)) (fun _ => by simp) (fun _ => by simp) r)

theorem holdsNative (n : NativeId) : w'.holdsNative n = w.holdsNative n := by
  have inObjects (w : World) : (∃ o object, w.host.object? o = some object ∧
      ∃ v ∈ object.values, n ∈ v.2.natives) = ∃ o object, w.object? o = some object ∧
      ∃ v ∈ object.values, n ∈ v.2.natives := by
    simp only [object?_host, Option.map_eq_some_iff, exists_exists_and_eq_and, HostObject.bare,
      List.mem_map, HostValue.natives_bare]
  rw [Bool.eq_iff_iff, holdsNative_iff, holdsNative_iff]
  refine or_congr (exists_congr fun r => twins.native_iff r n) (Eq.to_iff ?_)
  rw [← inObjects, twins.host, inObjects]

/-- The same native object ends. -/
theorem dropNative (n : NativeId) :
    (w'.dropNative n).1.map Native.bare = (w.dropNative n).1.map Native.bare ∧
      b.Twins thread waiting [] (w.dropNative n).2 (w'.dropNative n).2 := by
  have natives := twins.native? n
  have erased : host { w' with natives := w'.natives.erase n } =
      host { w with natives := w.natives.erase n } := by
    rw [host_eraseNative, host_eraseNative, twins.host]
  have gone : b.Twins thread waiting [] { w with natives := w.natives.erase n }
      { w' with natives := w'.natives.erase n } :=
    twins.of_host rfl rfl erased
  have given_up (o : ObjectId) : b.Twins thread waiting []
      (modifyObject { w with natives := w.natives.erase n } o fun object =>
        { object with owned := false })
      (modifyObject { w' with natives := w'.natives.erase n } o fun object =>
        { object with owned := false }) := by
    refine gone.of_host rfl rfl ?_
    rw [host_modifyObject _ o (g := fun object => { object with owned := false }) fun _ => rfl,
      host_modifyObject _ o (g := fun object => { object with owned := false }) fun _ => rfl, erased]
  unfold World.dropNative
  rw [twins.holdsNative]
  split
  · exact ⟨rfl, twins⟩
  · cases there : w.native? n with
    | none =>
      rw [there] at natives
      rw [Option.map_eq_none_iff.mp natives]
      exact ⟨rfl, twins⟩
    | some native =>
      rw [there] at natives
      obtain ⟨native', there', same⟩ := Option.map_eq_some_iff.mp natives
      rw [there']
      cases native with
      | wrapper o owning ownership =>
        cases native' <;> cases same
        cases owning
        · exact ⟨rfl, gone⟩
        · exact ⟨rfl, given_up o⟩
      | _ =>
        cases native' <;> first | cases same; done | exact ⟨congrArg some same, gone⟩

section Showing

theorem showHost (o : ObjectId) : w'.showHost o = w.showHost o :=
  twins.same_host (·.showHost o) (showHost_host · o)

theorem showUserdata (r : Ref) : w'.showUserdata r = w.showUserdata r := by
  rcases twins.cell? r with same | ⟨-, t, t', found, found'⟩ | ⟨free, d, made⟩
  · unfold World.showUserdata
    rw [same]
    cases w.cell? r with
    | none => rfl
    | some c =>
      cases c with
      | native n =>
        dsimp only
        have natives := twins.native? n
        cases there : w.native? n with
        | none =>
          rw [there] at natives
          rw [Option.map_eq_none_iff.mp natives]
        | some native =>
          rw [there] at natives
          obtain ⟨native', there', equal⟩ := Option.map_eq_some_iff.mp natives
          rw [there']
          have display : native'.display w' = native.display w := by
            rw [← display_bare, equal, display_bare]
            exact twins.same_host native.display (display_host · native)
          have typeName : native'.typeName w' = native.typeName w := by
            rw [← typeName_bare, equal, typeName_bare]
            exact twins.same_host native.typeName (typeName_host · native)
          cases native with
          | wrapper o =>
            cases native' <;> cases equal
            exact twins.showHost o
          | _ =>
            cases native' <;> first | (cases equal; done) | (dsimp only; rw [display, typeName])
      | _ => rfl
  · simp only [World.showUserdata, found, found']
  · simp only [World.showUserdata, free, made]

variable (runs : (b.engine? thread.owner).map (·.running) = some thread)
include runs

theorem showDatum (levels : Nat) (d : Datum) : w'.showDatum levels d = w.showDatum levels d := by
  induction levels generalizing d with
  | zero =>
    cases d <;> simp only [World.showDatum, twins.showUserdata, World.showThread, twins.threadState runs]
  | succ levels ih =>
    cases d with
    | table r =>
      rcases twins.cell? r with same | ⟨-, t, t', found, found'⟩ | ⟨free, d, made⟩
      · simp only [World.showDatum, same, ih]
      · simp only [World.showDatum, found, found', ih]
      · simp only [World.showDatum, free, made, ih]
    | _ => simp only [World.showDatum, twins.showUserdata, World.showThread, twins.threadState runs]

theorem showValue {v v' : Value} (same : v'.bare = v.bare) : w'.showValue v' = w.showValue v := by
  have blind : w'.showValue v' = w'.showValue v :=
    Value.congr_bare (f := w'.showValue) (fun _ _ _ => rfl) same
  rw [blind]
  cases v with
  | handle h => simp only [World.showValue, twins.isOpen, twins.showDatum runs, twins.showUserdata,
      World.showThread, twins.threadState runs]
  | _ => rfl

end Showing

end Looking

mutual

/-- Host values that are the same but for their anchors are shown the same. -/
theorem showHostValue (twins : b.Twins thread waiting [] w w')
    (runs : (b.engine? thread.owner).map (·.running) = some thread) {v v' : HostValue}
    (same : v'.bare = v.bare) : w'.showHostValue v' = w.showHostValue v := by
  cases v with
  | variant v =>
    cases v' with
    | variant v' =>
      rw [World.showHostValue, World.showHostValue, twins.showValue runs (HostValue.variant.inj same)]
    | _ => cases same
  | list items =>
    cases v' with
    | list items' =>
      rw [World.showHostValue, World.showHostValue,
        twins.showHostValues runs (HostValue.list.inj same)]
    | _ => cases same
  | object o =>
    cases v' with
    | object =>
      cases same
      have shown : w'.showHost = w.showHost := funext twins.showHost
      simp only [World.showHostValue, shown]
    | _ => cases same
  | native n =>
    cases v' with
    | native =>
      cases same
      have named : w'.typeNameOf = w.typeNameOf :=
        funext fun n => twins.same_host (·.typeNameOf n) (typeNameOf_host · n)
      simp only [World.showHostValue, named]
    | _ => cases same
  | _ => cases v' <;> first | (cases same; rfl) | cases same

theorem showHostValues (twins : b.Twins thread waiting [] w w')
    (runs : (b.engine? thread.owner).map (·.running) = some thread) {items items' : List HostValue}
    (same : HostValue.bareAll items' = HostValue.bareAll items) :
    w'.showHostValues items' = w.showHostValues items := by
  cases items with
  | nil => cases items' with
    | nil => rfl
    | cons => cases same
  | cons item rest => cases items' with
    | nil => cases same
    | cons item' rest' =>
      obtain ⟨first, others⟩ := List.cons_eq_cons.mp same
      rw [World.showHostValues, World.showHostValues, twins.showHostValue runs first,
        twins.showHostValues runs others]

end

/-- What an object has stored changes as it is shown. -/
theorem differ (twins : b.Twins thread waiting [] w w')
    (runs : (b.engine? thread.owner).map (·.running) = some thread) {old old' new new' : Option HostValue}
    (same : old'.map HostValue.bare = old.map HostValue.bare)
    (same' : new'.map HostValue.bare = new.map HostValue.bare) :
    Host.differ w' old' new' = Host.differ w old new := by
  have each {γ : Type} {g g' : HostValue → γ}
      (equally : ∀ {v v' : HostValue}, v'.bare = v.bare → g' v' = g v) {v v' : Option HostValue}
      (same : v'.map HostValue.bare = v.map HostValue.bare) : v'.map g' = v.map g := by
    cases v with
    | none => rw [Option.map_eq_none_iff.mp same]; rfl
    | some v =>
      obtain ⟨v', rfl, equal⟩ := Option.map_eq_some_iff.mp same
      exact congrArg some (equally equal)
  unfold Host.differ
  exact congrArg₂ (· != ·) (each (fun equal => by rw [twins.showHostValue runs equal]) same)
    (each (fun equal => by rw [twins.showHostValue runs equal]) same')

end Twins

end World

end ScriptBridge
