import ScriptBridge.Proofs.Constructs
import ScriptBridge.Proofs.Properties
import ScriptBridge.Proofs.Retention
import ScriptBridge.Proofs.Session

/-!
Iterations over the properties of host objects. The function `each` asks for the names of an object's
properties and returns a function that goes on with them, one at each call. So what is visited is
what is listed, and a property that a derived class declares again is visited again.
-/

namespace ScriptBridge

open Script (Bytes CallForm CallbackResult Cell Closure Datum Env Expr FunctionBody Kont Machine
  Outcome Site Stmt Table)

/-- Where the parts of an iteration are: the function that goes on with it, the variables of that
function, the table of names, and the userdata of the object. -/
structure Iterator where
  function : Ref
  counter : Ref
  list : Ref
  subject : Ref
  table : Ref
  object : Ref

namespace Iterator

/-- The function
`function() i = i + 1 local name = names[i] if name ~= nil then return name, t[name] end end`. -/
inductive Advances : FunctionBody → Prop where
  | mk (l l₁ l₂ l₃ l₄ l₅ : Nat) : Advances (.mk [] false ["i", "names", "t"]
      [.assign [.var "i" true] [.binary .add (.var "i" true) (.int 1) l] l₁,
        .locals ["name"] [.index (.var "names" true) (.var "i" true) l₂],
        .conditional (.binary .ne (.var "name" false) .nil l₃)
          [.returns [.var "name" false, .index (.var "t" true) (.var "name" false) l₄]] []] l₅)

/-- The function `each`: it hands a table over to `next`; of any other value it asks for the names of
the properties, and it returns a function that goes on with them. -/
inductive Begins : FunctionBody → Prop where
  | mk {step : FunctionBody} (advances : Advances step) (l l₁ l₂ l₃ : Nat) :
    Begins (.mk ["t"] false ["property_names"]
      [.conditional (.binary .eq (.call (.global "type") [.var "t" false] l)
          (.text (.ofString "table")) l₁) [.returns [.global "next", .var "t" false, .nil]] [],
        .locals ["names"] [.call (.var "property_names" true) [.var "t" false] l₂],
        .locals ["i"] [.int 0],
        .returns [.function step]] l₃)

def isAdvancing : FunctionBody → Bool
  | .mk [] false ["i", "names", "t"]
      [.assign [.var "i" true] [.binary .add (.var "i" true) (.int one) _] _,
        .locals ["name"] [.index (.var "names" true) (.var "i" true) _],
        .conditional (.binary .ne (.var "name" false) .nil _)
          [.returns [.var "name" false, .index (.var "t" true) (.var "name" false) _]] []] _ =>
    one == 1
  | _ => false

def isBeginning : FunctionBody → Bool
  | .mk ["t"] false ["property_names"]
      [.conditional (.binary .eq (.call (.global "type") [.var "t" false] _) (.text table) _)
          [.returns [.global "next", .var "t" false, .nil]] [],
        .locals ["names"] [.call (.var "property_names" true) [.var "t" false] _],
        .locals ["i"] [.int zero],
        .returns [.function step]] _ => table == .ofString "table" && zero == 0 && isAdvancing step
  | _ => false

theorem advances_of_isAdvancing {body : FunctionBody} (found : isAdvancing body = true) :
    Advances body := by
  unfold isAdvancing at found
  split at found
  · obtain rfl := eq_of_beq found
    constructor
  · cases found

theorem begins_of_isBeginning {body : FunctionBody} (found : isBeginning body = true) :
    Begins body := by
  unfold isBeginning at found
  split at found
  · simp only [Bool.and_eq_true, beq_iff_eq] at found
    obtain ⟨⟨rfl, rfl⟩, advances⟩ := found
    exact .mk (advances_of_isAdvancing advances) ..
  · cases found

end Iterator

namespace World

variable {w w' : World} {s : StateId} {r : Ref} {o : ObjectId}

/-- A userdata stands for an object. -/
def StandsFor (w : World) (r : Ref) (o : ObjectId) : Prop :=
  ∃ n owning origin, w.cell? r = some (.native n) ∧ w.native? n = some (.wrapper o owning origin)

theorem standsFor_iff {a : AnchorId} :
    w.StandsFor r o ↔ w.hostObject? (.handle ⟨.userdata, r, a⟩) = some o := by
  unfold StandsFor hostObject? nativeOf? nativeId?
  constructor
  · rintro ⟨n, owning, origin, holds, there⟩
    simp [holds, there]
  · intro wraps
    dsimp only at wraps
    cases cell : w.cell? r with
    | none => simp [cell] at wraps
    | some c =>
      cases c with
      | native n =>
        cases there : w.native? n with
        | none => simp [cell, there] at wraps
        | some native => cases native <;> simp_all
      | _ => simp [cell] at wraps

theorem Retains.standsFor (retains : w.Retains w') (stands : w.StandsFor r o) :
    w'.StandsFor r o := by
  obtain ⟨n, owning, origin, holds, there⟩ := stands
  exact ⟨n, owning, origin, retains.cell? holds (by simp), retains.native? there⟩

theorem Retains.reads (retains : w.Retains w') {env : Env} {name : String} {d : Datum}
    (reads : w.Reads env name d) : w'.Reads env name d :=
  reads.imp fun _ => .imp_right (retains.cell? · (by simp))

/-- An iteration over the properties of an object has come to a position: as many names of its class
have been given. -/
structure Iterates (w : World) (s : StateId) (it : Iterator) (o : ObjectId) (c : Class) (k : Nat) :
    Prop where
  isOpen : w.isOpen s
  function : ∃ body chunk, Iterator.Advances body ∧ w.cell? it.function =
    some (.closure ⟨body, [("i", it.counter), ("names", it.list), ("t", it.subject)], chunk⟩)
  counter : w.cell? it.counter = some (.variable (.int (.ofNat k)))
  list : w.cell? it.list = some (.variable (.table it.table))
  subject : w.cell? it.subject = some (.variable (.userdata it.object))
  table : ∃ content, w.cell? it.table = some (.table content none) ∧
    content.Lists (c.propertyNames.map .str)
  object : w.StandsFor it.object o
  cls : w.classOf o = c
  fits : (c.propertyNames.length : Int) < Int64.maxValue.toInt

namespace Iterates

variable {it : Iterator} {c : Class} {k : Nat} (iterates : w.Iterates s it o c k)
include iterates

theorem retained (retains : w.Retains w') : w'.Iterates s it o c k where
  isOpen := (retains.isOpen s).trans iterates.isOpen
  function := iterates.function.imp fun _ => .imp fun _ => .imp_right (retains.cell? · (by simp))
  counter := retains.cell? iterates.counter (by simp)
  list := retains.cell? iterates.list (by simp)
  subject := retains.cell? iterates.subject (by simp)
  table := iterates.table.imp fun _ => .imp_left (retains.cell? · (by simp))
  object := retains.standsFor iterates.object
  cls := (retains.classOf o).trans iterates.cls
  fits := iterates.fits

theorem mirrored (mirrors : w.Mirrors w') : w'.Iterates s it o c k :=
  iterates.retained (.of_mirrors mirrors)

/-- The counter counts on. -/
theorem advance :
    (w.write it.counter (.variable (.int (.ofNat k + 1)))).Iterates s it o c (k + 1) := by
  obtain ⟨isOpen, function, counter, list, subject, table, ⟨n, owning, origin, holds, there⟩, cls,
    fits⟩ := iterates
  have puts : w.Puts it.counter (.variable (.int (.ofNat k + 1))) _ := .write counter rfl
  have kept {r : Ref} {cell : Cell} (found : w.cell? r = some cell)
      (other : cell ≠ .variable (.int (.ofNat k))) :
      (w.write it.counter (.variable (.int (.ofNat k + 1)))).cell? r = some cell := by
    rw [puts.others, found]
    rintro rfl
    exact other (Option.some.inj (found.symm.trans counter))
  exact {
    isOpen := by simpa [World.write] using isOpen
    function := function.imp fun _ => .imp fun _ => .imp_right (kept · (by simp))
    counter := by rw [puts.there, Int64.ofNat_add]; rfl
    list := kept list (by simp)
    subject := kept subject (by simp)
    table := table.imp fun _ => .imp_left (kept · (by simp))
    object := ⟨n, owning, origin, kept holds (by simp), there⟩
    cls, fits }

end Iterates

/-- The item of the table of names at the position that comes next. -/
theorem Iterates.item {it : Iterator} {c : Class} {k : Nat} (iterates : w.Iterates s it o c (k + 1))
    (within : k ≤ c.propertyNames.length) :
    ∃ content, w.cell? it.table = some (.table content none) ∧
      content.get (.int (.ofNat (k + 1))) = ((c.propertyNames[k]?).map Datum.str).getD .nil := by
  obtain ⟨content, found, lists⟩ := iterates.table
  have fits := iterates.fits
  rw [Int64.toInt_maxValue] at fits
  have number : (Int64.ofNat (k + 1)).toInt = k + 1 := Int64.toInt_ofNat_of_lt (by omega)
  exact ⟨content, found, by rw [lists.get, number, Table.itemAt_succ, List.getElem?_map]⟩

end World

variable {w w' : World} {s : StateId} {it : Iterator} {o : ObjectId} {c : Class} {k : Nat}
  {m : Machine} {env : Env}

namespace Script.Machine

/-- The member that is read is the second result of the function. -/
theorem walks_pair {caller : Option Site} {title : String} {d d' : Datum} :
    Walks 3 (((((m.push (.activation caller title)).push (.block [] env)).push
      (.gather [d] [] env .returns)).push .single).give [d']) w (m.give [d, d']) w :=
  .step rfl (.step rfl (.one rfl))

/-- What scripts get as the names of the properties of an object. -/
theorem of_runHost_propertyNames {r : Ref} (stands : w.StandsFor r o) (isOpen : w.isOpen s)
    (fits : ((w.classOf o).propertyNames.length : Int) ≤ Int64.maxValue.toInt) {data : List Datum}
    (ends : Ends (Script.runHost s .propertyNames [.userdata r]) w (.ok (.ok data)) w') :
    ∃ t content, data = [.table t] ∧ w'.cell? t = some (.table content none) ∧
      content.Lists ((w.classOf o).propertyNames.map .str) ∧ w.Retains w' := by
  obtain ⟨a, w₁, goes, retains⟩ : ∃ a w₁, (Value.ofData [.userdata r]).straight w =
      some ([.handle ⟨.userdata, r, a⟩], w₁) ∧ w.Retains w₁ := ⟨_, _, rfl, .of_mirrors (.anchor w r)⟩
  have wrapped := World.standsFor_iff (a := a) |>.mp (retains.standsFor stands)
  have runs := (Ends.straight_bind_iff goes).mp ends
  obtain ⟨results, w₂, gives, converts⟩ := Ends.of_bind_ok runs
  obtain ⟨v, w₃, makes, done⟩ := Ends.of_bind_ok gives
  obtain ⟨same, rfl⟩ := Ends.pure_iff.mp done
  cases same
  -- the names are listed in a new table
  unfold HostFunction.propertyList at makes
  rw [Ends.view_bind_iff] at makes
  simp only [HostFunction.argument, List.getD_cons_zero, wrapped] at makes
  rw [Ends.view_bind_iff, retains.classOf] at makes
  obtain ⟨t, a', content, rfl, own, found, lists, retained⟩ :=
    Ends.of_newSequence ((retains.isOpen s).trans isOpen) fits makes
  -- and the table is what scripts get
  have all := retains.trans retained
  have there : w₂.isOpen s := (all.isOpen s).trans isOpen
  have shown : [Value.handle ⟨.table, t, a'⟩].mapM (Value.datum w₂ s) = .ok [.table t] := by
    refine Value.data_cons.mpr ⟨_, [], ?_, rfl, rfl⟩
    simp [Value.datum, Handle.state, Handle.datum, own, there]
  obtain ⟨shownData, w₃, reads, last⟩ := Ends.of_bind_ok converts
  obtain ⟨same, rfl⟩ := Ends.toData_iff.mp reads
  obtain ⟨same', rfl⟩ := Ends.pure_iff.mp last
  cases same'
  rw [shown] at same
  cases same
  exact ⟨t, content, rfl, found, lists, all⟩

end Script.Machine

namespace World.Iterates

open Script.Machine

/-- How the function that goes on with an iteration runs: it counts and looks at the next name. If
there is none it ends; otherwise it comes to read the member of the object. -/
theorem walks (iterates : w.Iterates m.state it o c k) (within : k ≤ c.propertyNames.length)
    {args : List Datum} {form : CallForm}
    (calls : m.control = .call (.datum (.function it.function)) args form)
    (plain : form.isTail = false) : ∃ n ≤ 50, ∃ w', w'.Iterates m.state it o c (k + 1) ∧
      match c.propertyNames[k]? with
      | none => Walks n m w (m.give []) w'
      | some name => ∃ env caller title site, Walks n m w
          (((((m.push (.activation caller title)).push (.block [] env)).push
            (.gather [.str name] [] env .returns)).push .single).callMetamethod (.member .index)
              "__index" [.userdata it.object, .str name] site) w' := by
  obtain ⟨body, chunk, ⟨l, l₁, l₂, l₃, l₄, l₅⟩, closure⟩ := iterates.function
  obtain ⟨env, w₁, title, entered, beside, -, outer, -⟩ :=
    walks_call iterates.isOpen closure (by simp [FunctionBody.params]) calls plain
  have mirrors := beside.mirrors
  have sees (name : String) : env.ref? name = Env.ref?
      ⟨[("i", it.counter), ("names", it.list), ("t", it.subject)], [], []⟩ name :=
    outer name (by simp [FunctionBody.params])
  have here := iterates.mirrored mirrors
  have counted := here.advance
  -- the function counts
  have adds : Evaluates m.state _ (.binary .add (.var "i" true) (.int 1) l) env w₁
      [.int (.ofNat k + 1)] w₁ :=
    .binary (.var ⟨_, sees "i", here.counter⟩ true) (.int 1) fun _ _ => rfl
  -- it looks at the next name
  obtain ⟨content, found, item⟩ := counted.item within
  have looks : Evaluates m.state _ (.index (.var "names" true) (.var "i" true) l₂) env
      (w₁.write it.counter (.variable (.int (.ofNat k + 1)))) [content.get (.int (.ofNat (k + 1)))] _ :=
    .index (.var ⟨_, sees "names", counted.list⟩ true) (.var ⟨_, sees "i", counted.counter⟩ true)
      fun _ _ => straight_index_plain found _ _ _
  obtain ⟨env', w₃, declares, mirrors₂, reads, others⟩ := Executes.locals looks counted.isOpen
  have arrived := counted.mirrored mirrors₂
  -- and whether there is one
  have asks : Evaluates m.state _ (.binary .ne (.var "name" false) .nil l₃) env' w₃
      [.bool (Datum.rawEq (content.get (.int (.ofNat (k + 1)))) .nil != true)] w₃ :=
    .binary (.var reads false) .nil fun _ _ => by
      cases content.get (.int (.ofNat (k + 1))) <;> rfl
  let inside := m.push (.activation form.site title)
  have branches := entered.trans ((Executes.assign adds (sees "i") inside rfl).trans
    ((declares inside rfl).trans (walks_conditional (m := inside) rfl asks)))
  cases next : c.propertyNames[k]? with
  | none =>
    rw [item, next] at branches
    exact ⟨_, by decide, w₃, arrived, (branches.trans walks_blockEnd).trans walks_functionEnd⟩
  | some name =>
    rw [item, next] at branches reads
    have given : Evaluates m.state _ (.var "name" false) env' w₃ [.str name] w₃ := .var reads false
    have subject : w₃.Reads env' "t" (.userdata it.object) :=
      ⟨it.subject, (others "t" (by decide)).trans (sees "t"), arrived.subject⟩
    obtain ⟨n, owning, origin, holds, -⟩ := arrived.object
    have reaches := (walks_to_second (m := inside.push (.block [] env')) rfl given).trans
      (walks_to_member (l := l₄) rfl (.var subject true) given holds)
    exact ⟨_, by decide, w₃, arrived, env', form.site, title, _, branches.trans reaches⟩

/-- What a call of the function that goes on with an iteration gives: the next name and what the
member is, or nothing after the last name. -/
theorem of_call (iterates : w.Iterates s it o c k) (within : k ≤ c.propertyNames.length)
    {args data : List Datum}
    (ends : Ends (Script.runTask s (.call (.function it.function) args)) w (.ok (.ok data)) w') :
    ∃ w₁, w₁.Iterates s it o c (k + 1) ∧
      match c.propertyNames[k]? with
      | none => data = [] ∧ w' = w₁
      | some name => ∃ v d w₂, data = [.str name, d] ∧
        Ends (Native.readMember s o (.text name)) w₁ (.ok v) w₂ ∧ v.datum w₂ s = .ok d ∧
          w₂.Mirrors w' := by
  obtain ⟨thread, -, ends⟩ := of_runTask_call ends
  let m : Machine :=
    { state := s, thread := thread, control := .call (.datum (.function it.function)) args {} }
  obtain ⟨n, few, w₁, arrived, goes⟩ := walks (m := m) iterates within rfl rfl
  obtain ⟨rest, steps⟩ : ∃ rest, Script.stepLimit = n + (3 + (rest + 1) + 1) :=
    ⟨Script.stepLimit - n - 5, by unfold Script.stepLimit; omega⟩
  rw [steps] at ends
  cases next : c.propertyNames[k]? with
  | none =>
    rw [next] at goes
    obtain ⟨same, rfl⟩ := (Ends.straight_iff (straight_run (m := m.give []) rfl rfl rfl rfl)).mp
      ((goes.becomes _).ends.mp ends)
    cases same
    exact ⟨w', arrived, rfl, rfl⟩
  | some name =>
    rw [next] at goes
    obtain ⟨env, caller, title, site, goes⟩ := goes
    obtain ⟨given, v, w₂, w₃, before, native, after, back⟩ := CallsNative.of_run_ok (.member rfl)
      (by simp [m, push, callMetamethod, Machine.call, Kont.catches]) rfl rfl ((goes.becomes _).ends.mp ends)
    obtain ⟨i, owning, origin, holds, there⟩ := (arrived.mirrored before).object
    obtain ⟨w₀, v, d, mirrors, reads, shows, rfl⟩ := of_runMember_index holds there native
    obtain ⟨same, rfl⟩ := (Ends.straight_iff (straight_run (m := m.give _) rfl rfl rfl rfl)).mp
      ((walks_pair.becomes _).ends.mp back)
    cases same
    exact ⟨w₀, arrived.mirrored (before.trans mirrors), v, d, w₂, rfl, reads, shows, after⟩

end World.Iterates

/-- A state has the function `each` and what that uses. -/
structure World.HasEach (w : World) (s : StateId) (each : Ref) : Prop where
  function : ∃ body names chunk b, Iterator.Begins body ∧
    w.cell? each = some (.closure ⟨body, [("property_names", names)], chunk⟩) ∧
    w.cell? names = some (.variable (.function b)) ∧
    w.cell? b = some (.builtin (.host .propertyNames))
  type : ∃ e content metatable t, w.engine? s = some e ∧
    w.cell? e.globals = some (.table content metatable) ∧
    content.get (.str "type") = .function t ∧ w.cell? t = some (.builtin .type)

def World.hasEach (w : World) (s : StateId) (each : Ref) : Bool :=
  match w.cell? each, (w.engine? s).bind (w.cell? ·.globals) with
  | some (.closure ⟨body, [("property_names", names)], _⟩), some (.table content _) =>
    match w.cell? names, content.get (.str "type") with
    | some (.variable (.function b)), .function t =>
      match w.cell? b, w.cell? t with
      | some (.builtin (.host .propertyNames)), some (.builtin .type) => Iterator.isBeginning body
      | _, _ => false
    | _, _ => false
  | _, _ => false

theorem World.hasEach_of_hasEach {each : Ref} (found : w.hasEach s each = true) :
    w.HasEach s each := by
  unfold World.hasEach at found
  split at found
  · rename_i body names chunk content metatable closure globals
    obtain ⟨e, engine, globals⟩ := Option.bind_eq_some_iff.mp globals
    split at found
    · rename_i b t list type
      split at found
      · rename_i host there
        exact ⟨⟨body, names, chunk, b, Iterator.begins_of_isBeginning found, closure, list, host⟩,
          ⟨e, content, metatable, t, engine, globals, type, there⟩⟩
      · cases found
    · cases found
  · cases found

namespace Script.Machine

/-- With the table of names, the function declares its variables and returns the one that goes on. -/
theorem walks_begin {step : FunctionBody} (advances : Iterator.Advances step)
    (isOpen : w.isOpen m.state) {r t : Ref} (subject : w.Reads env "t" (.userdata r))
    {content : Table} (listed : w.cell? t = some (.table content none))
    (lists : content.Lists ((w.classOf o).propertyNames.map .str)) (stands : w.StandsFor r o)
    (fits : ((w.classOf o).propertyNames.length : Int) < Int64.maxValue.toInt)
    (caller : Option Site) (title : String) : ∃ it w',
      Walks (1 + (1 + 1 + 1 + (1 + 1 + 2))) (((m.push (.activation caller title)).push
        (.gather [] [] env (.locals ["names"] [.locals ["i"] [.int 0], .returns [.function step]]))).give
          [.table t]) w (m.give [.function it.function]) w' ∧
      w'.Iterates m.state it o (w.classOf o) 0 := by
  obtain ⟨env₁, w₁, declares, mirrors₁, ⟨list, refList, cellList⟩, others₁⟩ :=
    walks_declare env isOpen "names" (.table t)
      [.locals ["i"] [.int 0], .returns [.function step]]
  obtain ⟨env₂, w₂, counts, mirrors₂, ⟨counter, refCounter, cellCounter⟩, others₂⟩ :
      ∃ env₂ w₂, Executes m.state 3 (.locals ["i"] [.int 0] :: [.returns [.function step]]) env₁ w₁
        _ env₂ w₂ ∧ _ := Executes.locals (.int 0) ((mirrors₁.isOpen _).trans isOpen)
  obtain ⟨place, refSubject, cellSubject⟩ := subject
  have vars : step.captures.filterMap (fun name => (env₂.ref? name).map (name, ·)) =
      [("i", counter), ("names", list), ("t", place)] := by
    cases advances
    simp [FunctionBody.captures, refCounter, others₂ "names" (by decide), refList,
      others₂ "t" (by decide), others₁ "t" (by decide), refSubject]
  let cell : Cell :=
    .closure ⟨step, [("i", counter), ("names", list), ("t", place)], env₂.chunk⟩
  have made := World.Mirrors.allocate w₂ m.state cell
  have all := World.Retains.of_mirrors ((mirrors₁.trans mirrors₂).trans made)
  have function : Evaluates m.state 1 (.function step) env₂ w₂
      [.function (w₂.allocate m.state cell).1] (w₂.allocate m.state cell).2 :=
    .function step (by rw [vars])
  refine ⟨⟨(w₂.allocate m.state cell).1, counter, list, place, t, r⟩, _,
    .trans (declares (m.push _) rfl)
      (.trans (counts (m.push _) rfl) (walks_returns rfl rfl function)), ?_⟩
  exact {
    isOpen := (all.isOpen _).trans isOpen
    function := ⟨step, _, advances,
      World.cell?_allocate (((mirrors₁.trans mirrors₂).isOpen _).trans isOpen) cell⟩
    counter := made.cell? cellCounter (by simp)
    list := (mirrors₂.trans made).cell? cellList (by simp)
    subject := all.cell? cellSubject (by simp)
    table := ⟨content, all.cell? listed (by simp), lists⟩
    object := all.standsFor stands
    cls := all.classOf o
    fits := fits }

end Script.Machine

namespace World.HasEach

open Script.Machine

/-- What a call of `each` with a host object gives: a function that goes on with an iteration over
the names of the object's properties, from the first one on. -/
theorem of_call {each : Ref} (has : w.HasEach s each) {r : Ref} (stands : w.StandsFor r o)
    (fits : ((w.classOf o).propertyNames.length : Int) < Int64.maxValue.toInt)
    {more data : List Datum}
    (ends : Ends (Script.runTask s (.call (.function each) (.userdata r :: more))) w (.ok (.ok data))
      w') :
    ∃ it : Iterator, data = [.function it.function] ∧ w'.Iterates s it o (w.classOf o) 0 := by
  obtain ⟨thread, isOpen, ends⟩ := of_runTask_call ends
  obtain ⟨body, names, chunk, b, ⟨advances, l, l₁, l₂, l₃⟩, closure, list, host⟩ := has.function
  obtain ⟨e, content, metatable, t, engine, globals, found, type⟩ := has.type
  let m : Machine :=
    { state := s, thread := thread
      control := .call (.datum (.function each)) (.userdata r :: more) {} }
  obtain ⟨env, w₁, title, entered, beside, -, outer, reads⟩ :=
    walks_call (m := m) isOpen closure (by simp [FunctionBody.params]) rfl rfl
  have mirrors := beside.mirrors
  have subject : w₁.Reads env "t" (.userdata r) := reads ("t", _) (.head _)
  have property : w₁.Reads env "property_names" (.function b) :=
    ⟨names, (outer _ (by simp [FunctionBody.params])).trans rfl, mirrors.cell? list (by simp)⟩
  let inside := m.push (.activation none title)
  -- the value is no table
  obtain ⟨e', engine', same⟩ := mirrors.globals engine
  have function : Evaluates s 1 (.global "type") env w₁ [.function t] w₁ := by
    rw [← found]
    exact .global engine' (same ▸ mirrors.cell? globals (by simp)) (by simp [found])
  have differ : (Datum.str "userdata").rawEq (.str "table") = false := by decide +kernel
  have asks : Evaluates s _ (.binary .eq (.call (.global "type") [.var "t" false] l)
      (.text (.ofString "table")) l₁) env w₁ [.bool false] w₁ :=
    .binary (.type function (.var subject false) (mirrors.cell? type (by simp))) (.text _)
      fun m _ => by
        change some (m.give [.bool (Datum.rawEq (.str "userdata") (.str "table") != false)], w₁) = _
        rw [differ]
        rfl
  have begins := entered.trans ((walks_conditional (m := inside) rfl asks).trans walks_blockEnd)
  -- so it gets the names of its properties
  obtain ⟨k, few, lists⟩ : ∃ k ≤ 50, Walks k m w _ w₁ := ⟨_, by decide, begins.trans (.step rfl
    (walks_to_call (m := inside.push _) (l := l₂) rfl (.var property true) (.var subject false)))⟩
  obtain ⟨rest, steps⟩ : ∃ rest,
      Script.stepLimit = k + (1 + (1 + 1 + 1 + (1 + 1 + 2)) + (rest + 1) + 1) :=
    ⟨Script.stepLimit - k - 10, by unfold Script.stepLimit; omega⟩
  rw [steps] at ends
  obtain ⟨given, v, v', w₂, before, native, after, back⟩ := CallsNative.of_run_ok
    (.host rfl (mirrors.cell? host (by simp)))
    (by simp [m, inside, push, Machine.call, Kont.catches]) rfl rfl ((lists.becomes _).ends.mp ends)
  have here := World.Retains.of_mirrors (mirrors.trans before)
  obtain ⟨table, listed, rfl, made, entries, fills⟩ := of_runHost_propertyNames
    (here.standsFor stands) ((here.isOpen s).trans isOpen) (by rw [here.classOf]; omega) native
  -- and returns the function that goes on with them
  have filled := fills.trans (.of_mirrors after)
  have all := here.trans filled
  have cls := all.classOf o
  rw [here.classOf, ← cls] at entries
  obtain ⟨it, w₃, returns, iterates⟩ := walks_begin (m := m) advances ((all.isOpen s).trans isOpen)
    (filled.reads (before.reads subject)) (after.cell? made (by simp)) entries
    (all.standsFor stands) (cls ▸ fits) none title
  obtain ⟨same, rfl⟩ := (Ends.straight_iff (straight_run (m := m.give _) rfl rfl rfl rfl)).mp
    ((returns.becomes _).ends.mp back)
  cases same
  exact ⟨it, rfl, cls ▸ iterates⟩

end World.HasEach

/-- Worlds that follow each other keep an iteration where it is. -/
def Iterator.Stays (s : StateId) (it : Iterator) (o : ObjectId) (c : Class) (w w' : World) : Prop :=
  ∀ k, w.Iterates s it o c k → w'.Iterates s it o c k

/-- Someone goes through an iteration and gets names with values: the function is called until it
gives nothing. What happens between its calls leaves the iteration where it is. -/
inductive Iterator.Visits (s : StateId) (it : Iterator) (o : ObjectId) (c : Class) :
    World → List (Datum × Datum) → World → Prop where
  | meanwhile {w w₁ w' : World} {visited : List (Datum × Datum)} (stays : it.Stays s o c w w₁)
    (rest : Visits s it o c w₁ visited w') : Visits s it o c w visited w'
  | visit {w w₁ w' : World} {args : List Datum} {key value : Datum} {visited : List (Datum × Datum)}
    (call : Ends (Script.runTask s (.call (.function it.function) args)) w (.ok (.ok [key, value])) w₁)
    (rest : Visits s it o c w₁ visited w') : Visits s it o c w ((key, value) :: visited) w'
  | finish {w w' : World} {args : List Datum}
    (call : Ends (Script.runTask s (.call (.function it.function) args)) w (.ok (.ok [])) w') :
    Visits s it o c w [] w'

/-- What a property shows to scripts: a value that the getter of its nearest declaration has given. -/
def Class.Shows (c : Class) (s : StateId) (o : ObjectId) (name : String) (d : Datum) : Prop :=
  ∃ p v read v₁ value v', c.property? name = some p ∧ Ends (p.read o) v (.ok read) v₁ ∧
    Ends (read.toValue s) v₁ (.ok value) v' ∧ value.datum v' s = .ok d

theorem Class.shows_of_readMember {name : String} (listed : name ∈ (w.classOf o).propertyNames)
    {value : Value} {d : Datum} (ends : Ends (Native.readMember s o (.text name)) w (.ok value) w')
    (shows : value.datum w' s = .ok d) : (w.classOf o).Shows s o name d := by
  obtain ⟨p, found⟩ := Option.isSome_iff_exists.mp (Class.mem_propertyNames_iff.mp listed)
  obtain ends | ⟨⟨_, none⟩, -⟩ := Native.of_readMember found ends
  · obtain ⟨read, v₁, reads, converts⟩ := Ends.of_bind_ok ends
    exact ⟨p, w, read, v₁, value, w', found, reads, converts, shows⟩
  · cases none

/-- From wherever an iteration has come to, all further names are visited in their order. -/
theorem Iterator.Visits.rest {visited : List (Datum × Datum)} (visits : it.Visits s o c w visited w')
    (reads : ∀ name ∈ c.propertyNames, ∀ v value v',
      Ends (Native.readMember s o (.text name)) v (.ok value) v' → it.Stays s o c v v')
    (iterates : w.Iterates s it o c k) (within : k ≤ c.propertyNames.length) :
    List.Forall₂ (fun name item => item.1 = .str name ∧ c.Shows s o name item.2)
      (c.propertyNames.drop k) visited := by
  induction visits generalizing k with
  | meanwhile stays _ ih => exact ih (stays k iterates) within
  | visit call _ ih =>
    obtain ⟨w₁, arrived, gives⟩ := iterates.of_call within call
    cases next : c.propertyNames[k]? with
    | none =>
      rw [next] at gives
      cases gives.1
    | some name =>
      rw [next] at gives
      obtain ⟨v, d, w₂, same, ends, shows, after⟩ := gives
      cases same
      obtain ⟨inside, there⟩ := List.getElem?_eq_some_iff.mp next
      have listed : name ∈ c.propertyNames := List.mem_of_getElem? next
      rw [List.drop_eq_getElem_cons inside, there]
      refine .cons ⟨rfl, ?_⟩ (ih ((reads name listed _ _ _ ends _ arrived).mirrored after) inside)
      rw [← arrived.cls] at listed ⊢
      exact Class.shows_of_readMember listed ends shows
  | finish call =>
    obtain ⟨w₁, -, gives⟩ := iterates.of_call within call
    cases next : c.propertyNames[k]? with
    | none =>
      rw [List.drop_eq_nil_of_le (List.getElem?_eq_none_iff.mp next)]
      exact .nil
    | some name =>
      rw [next] at gives
      obtain ⟨_, _, _, same, -⟩ := gives
      cases same

/-- Properties of which the getters only look can be read in the middle of an iteration. -/
theorem Iterator.stays_of_looks (looks : ∀ p ∈ c.properties, p.getter.looks = true) {name : String}
    (listed : name ∈ c.propertyNames) {value : Value}
    (ends : Ends (Native.readMember s o (.text name)) w (.ok value) w') : it.Stays s o c w w' := by
  intro k iterates
  obtain ⟨p, found⟩ := Option.isSome_iff_exists.mp (Class.mem_propertyNames_iff.mp listed)
  have declared : p ∈ c.properties := List.mem_of_find?_eq_some (c.property?_eq_find? name ▸ found)
  rw [← iterates.cls] at found
  exact iterates.retained (Native.retains_readMember found (looks p declared) iterates.isOpen ends)

/-- The names of the properties are those that can be looked up, each listed once for each
declaration of it. An iteration over the properties of an object, if it comes to its end and the
getters do not disturb it, visits the names that are listed, in their order, each time with what the
nearest declaration of the name shows. -/
theorem Class.visits_propertyNames (c : Class) :
    (∀ name, (name ∈ c.propertyNames ↔ (c.property? name).isSome = true) ∧
      c.propertyNames.count name = c.propertyDeclarations name) ∧
    ∀ (w w₁ : World) (s : StateId) (each r : Ref) (a : AnchorId) (o : ObjectId)
      (more data : List Datum), w.HasEach s each →
      w.hostObject? (.handle ⟨.userdata, r, a⟩) = some o → w.classOf o = c →
      (c.propertyNames.length : Int) < Int64.maxValue.toInt →
      Ends (Script.runTask s (.call (.function each) (.userdata r :: more))) w (.ok (.ok data)) w₁ →
      ∃ it : Iterator, data = [.function it.function] ∧ w₁.Iterates s it o c 0 ∧
        ((∀ name ∈ c.propertyNames, ∀ v value v',
            Ends (Native.readMember s o (.text name)) v (.ok value) v' → it.Stays s o c v v') →
          ∀ visited w', it.Visits s o c w₁ visited w' →
            List.Forall₂ (fun name item => item.1 = .str name ∧ c.Shows s o name item.2)
              c.propertyNames visited) := by
  refine ⟨fun name => ⟨mem_propertyNames_iff, count_propertyNames c name⟩, ?_⟩
  rintro w w₁ s each r a o more data has wraps rfl fits calls
  obtain ⟨it, same, iterates⟩ := has.of_call (World.standsFor_iff.mpr wraps) fits calls
  exact ⟨it, same, iterates, fun reads visited w' visits =>
    visits.rest reads iterates (Nat.zero_le _)⟩

/-- What a call of a function in the first state comes to. -/
private def called (f : Ref) (args : List Datum) (w : World) : Except Fault Outcome × World :=
  (Script.runTask 0 (.call (.function f) args)).run w

private theorem ends_called {f : Ref} {args data : List Datum}
    (same : (called f args w).1 = .ok (.ok data)) :
    Ends (Script.runTask 0 (.call (.function f) args)) w (.ok (.ok data)) (called f args w).2 :=
  Ends.of_run_ok same

/-- An object of a class that declares a property of its base class again. -/
def redeclaring : World := Step.play {} [⟨.openState { engine := { libraries := [] } }, []⟩,
  ⟨.newObject (.extend (some <| .extend (some .root)
      { name := "Base", properties := [⟨"size", .int, .const (.int 1), none, none⟩] })
    { name := "Derived", properties := [⟨"size", .int, .const (.int 2), none, none⟩] }) "", ["o"]⟩,
  ⟨.wrap 0 0 .native, ["userdata"]⟩]

theorem Class.visits_propertyNames_redeclaring : ∃ (it : Iterator) (w₁ w' : World),
    Ends (Script.runTask 0 (.call (.function ⟨0, 40⟩) [.userdata ⟨0, 41⟩])) redeclaring
      (.ok (.ok [.function it.function])) w₁ ∧
    ∃ visited, it.Visits 0 0 (redeclaring.classOf 0) w₁ visited w' ∧
      visited.map Prod.fst = [.str "size", .str "size", .str "objectName", .str "parent"] ∧
      List.Forall₂ (fun name item =>
          item.1 = .str name ∧ (redeclaring.classOf 0).Shows 0 0 name item.2)
        (redeclaring.classOf 0).propertyNames visited := by
  let next (w : World) : World := (called ⟨0, 46⟩ [] w).2
  let w₁ : World := (called ⟨0, 40⟩ [.userdata ⟨0, 41⟩] redeclaring).2
  obtain ⟨has, wraps, few, looks, begins, first, second, third, fourth, last⟩ :
      redeclaring.hasEach 0 ⟨0, 40⟩ = true ∧
      redeclaring.hostObject? (.handle ⟨.userdata, ⟨0, 41⟩, 0⟩) = some 0 ∧
      (redeclaring.classOf 0).propertyNames.length = 4 ∧
      (redeclaring.classOf 0).properties.all (·.getter.looks) = true ∧
      (called ⟨0, 40⟩ [.userdata ⟨0, 41⟩] redeclaring).1 = .ok (.ok [.function ⟨0, 46⟩]) ∧
      (called ⟨0, 46⟩ [] w₁).1 = .ok (.ok [.str "size", .int 2]) ∧
      (called ⟨0, 46⟩ [] (next w₁)).1 = .ok (.ok [.str "size", .int 2]) ∧
      (called ⟨0, 46⟩ [] (next (next w₁))).1 = .ok (.ok [.str "objectName", .str ""]) ∧
      (called ⟨0, 46⟩ [] (next (next (next w₁)))).1 = .ok (.ok [.str "parent", .nil]) ∧
      (called ⟨0, 46⟩ [] (next (next (next (next w₁))))).1 = .ok (.ok []) := by
    decide +kernel
  obtain ⟨it, same, -, visits⟩ := (Class.visits_propertyNames _).2 redeclaring w₁ 0 _ _ 0 0 [] _
    (World.hasEach_of_hasEach has) wraps rfl (by rw [few]; decide) (ends_called begins)
  have function : it.function = ⟨0, 46⟩ := by simpa using same.symm
  have goes {w : World} {data : List Datum} (same : (called ⟨0, 46⟩ [] w).1 = .ok (.ok data)) :
      Ends (Script.runTask 0 (.call (.function it.function) [])) w (.ok (.ok data)) (next w) := by
    rw [function]
    exact ends_called same
  have through : it.Visits 0 0 (redeclaring.classOf 0) w₁ [(.str "size", .int 2),
      (.str "size", .int 2), (.str "objectName", .str ""), (.str "parent", .nil)]
      (next (next (next (next (next w₁))))) :=
    .visit (goes first) (.visit (goes second) (.visit (goes third) (.visit (goes fourth)
      (.finish (goes last)))))
  refine ⟨it, w₁, _, ?_, _, through, rfl, visits (fun name listed v value v' =>
    Iterator.stays_of_looks (List.all_eq_true.mp looks) listed) _ _ through⟩
  rw [function]
  exact ends_called begins

end ScriptBridge
