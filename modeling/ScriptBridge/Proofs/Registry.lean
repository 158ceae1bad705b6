import Mathlib.Data.List.Induction
import ScriptBridge.Host.Samples
import ScriptBridge.Proofs.Session
import ScriptBridge.Proofs.Traces

/-!
The table of registered classes through any sequence of registrations: its entries and its names stay
inverse to each other, the first registration of a name stays, and so does every answer.
-/

namespace ScriptBridge

open World (normalName)

/-- A class that is to be registered, and whether it has a creator. -/
abbrev Registration := Class × Bool

namespace Registration

/-- The name under which a class is found. -/
def key (r : Registration) : String := normalName r.1.name

/-- The registrations that are the first ones of their names, in order. -/
def firsts : List Registration → List Registration
  | [] => []
  | r :: rest => r :: (firsts rest).filter (·.key ≠ r.key)

theorem exists_firsts_iff {rs : List Registration} {name : String} :
    (∃ r ∈ firsts rs, r.key = name) ↔ ∃ r ∈ rs, r.key = name := by
  induction rs with
  | nil => rfl
  | cons r rest ih =>
    by_cases same : r.key = name
    · simp [firsts, same]
    · simp only [firsts, List.mem_cons, List.mem_filter, or_and_right, exists_or, exists_eq_left,
        same, false_or, ← ih]
      refine exists_congr fun r' => and_congr_left fun named => ?_
      simp [named, Ne.symm same]

/-- A last registration is a first one if no other has its name. -/
theorem firsts_append_singleton (rs : List Registration) (r : Registration) :
    firsts (rs ++ [r]) = if ∃ r' ∈ rs, r'.key = r.key then firsts rs else firsts rs ++ [r] := by
  induction rs with
  | nil => rfl
  | cons r' rest ih =>
    rw [List.cons_append, firsts, ih, firsts]
    by_cases there : ∃ r' ∈ rest, r'.key = r.key
    · simp [there]
    · by_cases same : r'.key = r.key
      · simp [there, same]
      · simp [there, same, Ne.symm same]

end Registration

/-- What an entry was registered with. -/
def TypeEntry.registration (e : TypeEntry) : Registration := (e.cls, e.creator)

namespace TypeTable

variable {t : TypeTable}

/-- The entries are numbered in order, and a name stands for the number of the one entry that has
it. -/
structure WellFormed (t : TypeTable) : Prop where
  numbered : ∀ (i : Nat) (e : TypeEntry), t.entries[i]? = some e → e.id = i
  named : ∀ (name : String) (i : Nat), t.byName.lookup name = some i ↔
    ∃ e, t.entries[i]? = some e ∧ normalName e.cls.name = name

theorem wellFormed_empty : ({} : TypeTable).WellFormed := by
  constructor <;> simp

namespace WellFormed

/-- No two entries have one name. -/
theorem eq_of_key_eq (wf : t.WellFormed) {i j : Nat} {a b : TypeEntry}
    (atI : t.entries[i]? = some a) (atJ : t.entries[j]? = some b)
    (same : normalName a.cls.name = normalName b.cls.name) : i = j := by
  have first := (wf.named _ i).mpr ⟨a, atI, same⟩
  have second := (wf.named _ j).mpr ⟨b, atJ, rfl⟩
  exact Option.some.inj (first.symm.trans second)

theorem lookup_eq_some_iff (wf : t.WellFormed) {name : String} {e : TypeEntry} :
    t.lookup name = some e ↔ ∃ i : Nat, t.entries[i]? = some e ∧ normalName e.cls.name = normalName name := by
  simp only [lookup, lookupId, Option.bind_eq_some_iff, wf.named]
  constructor
  · rintro ⟨i, ⟨e', found, named⟩, same⟩
    obtain rfl : e' = e := Option.some.inj (found.symm.trans same)
    exact ⟨i, found, named⟩
  · rintro ⟨i, found, named⟩
    exact ⟨i, ⟨e, found, named⟩, found⟩

theorem known_iff (wf : t.WellFormed) (name : String) :
    (∃ i, t.byName.lookup name = some i) ↔
      ∃ r ∈ t.entries.map (·.registration), r.key = name := by
  constructor
  · rintro ⟨i, found⟩
    obtain ⟨e, there, named⟩ := (wf.named _ i).mp found
    exact ⟨_, List.mem_map_of_mem (List.mem_of_getElem? there), named⟩
  · rintro ⟨_, member, named⟩
    obtain ⟨e, isEntry, rfl⟩ := List.mem_map.mp member
    obtain ⟨i, there⟩ := List.mem_iff_getElem?.mp isEntry
    exact ⟨i, (wf.named _ i).mpr ⟨e, there, named⟩⟩

end WellFormed

/-- Of a name that is there already the first registration stays. -/
theorem register_of_lookup {cls : Class} {id : Nat}
    (found : t.byName.lookup (normalName cls.name) = some id) (creator : Bool) :
    t.register cls creator = (id, t) := by
  rw [register, found]

theorem WellFormed.register_of_found (wf : t.WellFormed) {cls : Class} {e : TypeEntry}
    (found : t.lookup cls.name = some e) (creator : Bool) : t.register cls creator = (e.id, t) := by
  obtain ⟨i, named, there⟩ := Option.bind_eq_some_iff.mp found
  rw [register_of_lookup named, wf.numbered i e there]

/-- A new name gets the next number. -/
theorem register_of_new {cls : Class} (new : t.byName.lookup (normalName cls.name) = none)
    (creator : Bool) : t.register cls creator =
      (t.entries.length, { entries := t.entries ++ [⟨t.entries.length, cls, creator⟩]
                           byName := (normalName cls.name, t.entries.length) :: t.byName }) := by
  rw [register, new]

private theorem getElem?_append_singleton_iff {α : Type} {items : List α} {a b : α} {i : Nat} :
    (items ++ [a])[i]? = some b ↔ items[i]? = some b ∨ i = items.length ∧ a = b := by
  rcases Nat.lt_trichotomy i items.length with before | rfl | after
  · simp [List.getElem?_append_left before, Nat.ne_of_lt before]
  · simp
  · simp [List.getElem?_append_right (Nat.le_of_lt after), List.getElem?_eq_none (Nat.le_of_lt after),
      Nat.ne_of_gt after, Nat.sub_ne_zero_of_lt after]

theorem WellFormed.register (wf : t.WellFormed) (cls : Class) (creator : Bool) :
    (t.register cls creator).2.WellFormed := by
  cases found : t.byName.lookup (normalName cls.name) with
  | some id => rwa [register_of_lookup found]
  | none =>
    rw [register_of_new found]
    have unused (i : Nat) (e : TypeEntry) (there : t.entries[i]? = some e) :
        normalName e.cls.name ≠ normalName cls.name := fun same =>
      absurd ((wf.named _ i).mpr ⟨e, there, same⟩) (by simp [found])
    constructor
    · intro i e there
      rcases getElem?_append_singleton_iff.mp there with old | ⟨rfl, rfl⟩
      · exact wf.numbered i e old
      · rfl
    · intro name i
      simp only [getElem?_append_singleton_iff, or_and_right, exists_or, ← wf.named]
      by_cases same : name = normalName cls.name
      · subst same
        simp [found, eq_comm]
      · have other : (name == normalName cls.name) = false := by simpa using same
        simp [List.lookup_cons, other, Ne.symm same]

/-- Entries are added behind the others and never changed. -/
theorem entries_register (t : TypeTable) (cls : Class) (creator : Bool) :
    t.entries <+: (t.register cls creator).2.entries := by
  cases found : t.byName.lookup (normalName cls.name) with
  | some id => simp [register_of_lookup found]
  | none => simp [register_of_new found]

/-- The table after some more registrations, one after another. -/
def registerAll (t : TypeTable) (rs : List Registration) : TypeTable :=
  rs.foldl (fun t r => (t.register r.1 r.2).2) t

/-- The table after some registrations. -/
def after (rs : List Registration) : TypeTable := registerAll {} rs

theorem registerAll_append (t : TypeTable) (rs later : List Registration) :
    t.registerAll (rs ++ later) = (t.registerAll rs).registerAll later := List.foldl_append

theorem WellFormed.registerAll (wf : t.WellFormed) (rs : List Registration) :
    (t.registerAll rs).WellFormed := by
  induction rs generalizing t with
  | nil => exact wf
  | cons r rest ih => exact ih (wf.register r.1 r.2)

theorem entries_registerAll (t : TypeTable) (rs : List Registration) :
    t.entries <+: (t.registerAll rs).entries := by
  induction rs generalizing t with
  | nil => exact List.prefix_rfl
  | cons r rest ih => exact (t.entries_register r.1 r.2).trans (ih _)

theorem wellFormed_after (rs : List Registration) : (after rs).WellFormed :=
  wellFormed_empty.registerAll rs

theorem after_append (rs later : List Registration) :
    after (rs ++ later) = (after rs).registerAll later := registerAll_append {} rs later

/-- The entries are the first registrations of their names, in order. -/
theorem entries_after (rs : List Registration) :
    (after rs).entries.map (·.registration) = Registration.firsts rs := by
  induction rs using List.reverseRecOn with
  | nil => rfl
  | append_singleton rs r ih =>
    have known := (wellFormed_after rs).known_iff r.key
    rw [ih, Registration.exists_firsts_iff] at known
    rw [after_append, registerAll, List.foldl_cons, List.foldl_nil, Registration.firsts_append_singleton, ← ih]
    cases found : (after rs).byName.lookup r.key with
    | some id =>
      rw [register_of_lookup found, if_pos (known.mp ⟨id, found⟩)]
    | none =>
      rw [register_of_new found, if_neg (by simpa [found] using known)]
      simp [TypeEntry.registration]

theorem lookupId_registerAll {id : Nat} {e : TypeEntry} (found : t.lookupId id = some e)
    (rs : List Registration) : (t.registerAll rs).lookupId id = some e := by
  obtain ⟨more, same⟩ := t.entries_registerAll rs
  have small := (List.getElem?_eq_some_iff.mp found).1
  rw [lookupId, ← same, List.getElem?_append_left small]
  exact found

/-- Later registrations change no answer that was there. -/
theorem WellFormed.lookup_registerAll (wf : t.WellFormed) {name : String} {e : TypeEntry}
    (found : t.lookup name = some e) (rs : List Registration) :
    (t.registerAll rs).lookup name = some e := by
  obtain ⟨i, there, named⟩ := wf.lookup_eq_some_iff.mp found
  exact (wf.registerAll rs).lookup_eq_some_iff.mpr ⟨i, lookupId_registerAll there rs, named⟩

/-- What has been registered is found, under the number that was given for it. -/
theorem WellFormed.lookup_register (wf : t.WellFormed) {r : Registration}
    (new : t.byName.lookup r.key = none) :
    (t.register r.1 r.2).2.lookup r.1.name = some ⟨(t.register r.1 r.2).1, r.1, r.2⟩ := by
  refine (wf.register r.1 r.2).lookup_eq_some_iff.mpr ⟨t.entries.length, ?_, rfl⟩
  rw [register_of_new new]
  simp

end TypeTable

open TypeTable (registerAll after registerAll_append after_append)

/-- The registration that is about to be carried out. -/
def Moment.registration? : Moment → Option Registration
  | .op (.registerType cls creator) _ => some (cls, creator)
  | _ => none

/-- The registrations among the moments of a run, in order. -/
def registrations (moments : List Moment) : List Registration :=
  moments.filterMap (·.registration?)

theorem registrations_append (moments later : List Moment) :
    registrations (moments ++ later) = registrations moments ++ registrations later :=
  List.filterMap_append

theorem Request.Begins.typeTable {r : Request β} {a : Action β} {w w₁ : World}
    (begins : r.Begins w a w₁) : w₁.typeTable = w.typeTable := by
  cases begins with
  | program | refused => rfl
  | collected s _ kept => exact (World.OnlyEngines.retain w s kept).typeTable

/-- The table of classes is what the registrations of a run have made of it, whatever else has
happened. -/
theorem Runs.typeTable {a : Action α} {w w' : World} {moments : List Moment}
    {outcome : Option (Except Fault α)} (runs : Runs a w moments outcome w') :
    w'.typeTable = w.typeTable.registerAll (registrations moments) := by
  induction runs with
  | stop | pure | fail => rfl
  | @op _ _ o _ w _ moments _ _ ih =>
    rw [ih]
    cases o with
    | registerType => rfl
    | _ => exact congrArg (registerAll · (registrations moments)) (Op.typeTable_apply _ trivial)
  | requestStopped begins inner ih | requestFailed begins inner ih => rw [ih, begins.typeTable]; rfl
  | requestDone begins inner rest ihInner ihRest =>
    rw [ihRest, ihInner, begins.typeTable, ← registerAll_append, ← registrations_append]
    rfl
  | scopeStopped inner ih => rw [ih, (World.OnlyEngines.enter _ _).typeTable]
  | scopeDone inner rest ihInner ihRest =>
    rw [ihRest, (World.OnlyEngines.exit _ _ _).typeTable, ihInner,
      (World.OnlyEngines.enter _ _).typeTable, ← registerAll_append, ← registrations_append]

theorem Session.typeTable {moments : List Moment} {w : World} (session : Session moments w) :
    w.typeTable = after (registrations moments) := by
  induction session with
  | start => rfl
  | step session step runs ih => rw [runs.typeTable, ih, registrations_append, after_append]

theorem Reaches.typeTable {moments : List Moment} {w : World} (reaches : Reaches moments w) :
    w.typeTable = after (registrations moments) := by
  cases reaches with
  | within session step runs => rw [runs.typeTable, session.typeTable, registrations_append, after_append]

namespace TypeTable

/-- A name that has been registered before keeps its first number, class and creator. -/
theorem register_again {before : List Registration} {first : Registration}
    (new : ∀ r ∈ before, r.key ≠ first.key) (later : List Registration) {cls : Class}
    (named : normalName cls.name = first.key) (creator : Bool) :
    let id := ((after before).register first.1 first.2).1
    let t := after (before ++ first :: later)
    t.register cls creator = (id, t) ∧ t.lookup cls.name = some ⟨id, first.1, first.2⟩ := by
  intro id t
  have fresh : (after before).byName.lookup first.key = none := by
    refine Option.eq_none_iff_forall_ne_some.mpr fun i there => ?_
    have known := ((wellFormed_after before).known_iff _).mp ⟨i, there⟩
    rw [entries_after, Registration.exists_firsts_iff] at known
    obtain ⟨r, member, same⟩ := known
    exact new r member same
  have found := (wellFormed_after before).lookup_register fresh
  have kept := ((wellFormed_after before).register _ _).lookup_registerAll found later
  have there : t.lookup cls.name = some ⟨id, first.1, first.2⟩ := by
    have same : t = ((after before).register first.1 first.2).2.registerAll later :=
      after_append before (first :: later)
    rw [lookup, named, same]
    exact kept
  exact ⟨(wellFormed_after _).register_of_found there creator, there⟩

/-- Through any sequence of registrations, whatever happens between them, the entries are numbered in
the order in which their names came first; a name and a number lead to the one entry that has them;
what is registered again stays as it was, and so does every answer. -/
theorem registered (rs : List Registration) :
    let t := after rs
    t.entries.map (·.id) = List.range t.entries.length ∧
    t.entries.map (fun e => (e.cls, e.creator)) = Registration.firsts rs ∧
    (∀ (name : String) (e : TypeEntry), t.lookup name = some e ↔
      ∃ i : Nat, t.entries[i]? = some e ∧ normalName e.cls.name = normalName name) ∧
    (∀ (i j : Nat) (a b : TypeEntry), t.entries[i]? = some a → t.entries[j]? = some b → i ≠ j →
      normalName a.cls.name ≠ normalName b.cls.name) ∧
    (∀ (id : Nat) (e : TypeEntry), t.lookupId id = some e ↔ t.entries[id]? = some e) ∧
    (∀ (id : Nat) (e : TypeEntry), t.lookupId id = some e → t.lookup e.cls.name = some e) ∧
    (∀ before first later (cls : Class) (creator : Bool), rs = before ++ first :: later →
      (∀ r ∈ before, normalName r.1.name ≠ normalName first.1.name) →
      normalName cls.name = normalName first.1.name →
        let id := ((after before).register first.1 first.2).1
        t.register cls creator = (id, t) ∧ t.lookup cls.name = some ⟨id, first.1, first.2⟩) ∧
    (∀ later name e, t.lookup name = some e → (after (rs ++ later)).lookup name = some e) ∧
    (∀ later id e, t.lookupId id = some e → (after (rs ++ later)).lookupId id = some e) ∧
    ∀ moments w, Reaches moments w → registrations moments = rs → w.typeTable = t := by
  intro t
  have wf : t.WellFormed := wellFormed_after rs
  refine ⟨?_, entries_after rs, fun name e => wf.lookup_eq_some_iff, ?_, fun _ _ => Iff.rfl, ?_, ?_, ?_, ?_, ?_⟩
  · refine List.ext_getElem (by simp) fun i small _ => ?_
    rw [List.getElem_map, List.getElem_range]
    exact wf.numbered i _ (List.getElem?_eq_getElem _)
  · exact fun i j a b atI atJ other same => other (wf.eq_of_key_eq atI atJ same)
  · exact fun id e found => wf.lookup_eq_some_iff.mpr ⟨id, found, rfl⟩
  · rintro before first later cls creator rfl new named
    exact register_again new later named creator
  · intro later name e found
    rw [after_append]
    exact wf.lookup_registerAll found later
  · intro later id e found
    rw [after_append]
    exact lookupId_registerAll found later
  · rintro moments w reaches rfl
    exact reaches.typeTable

/-- Two classes are registered in a session; a third one has the normal name of the first. -/
theorem registered_twice : ∃ moments w,
    Reaches moments w ∧ w.lookupType "Test::Sink" = some ⟨1, Samples.sink, false⟩ ∧
      w.registerType { own := { name := "Test__MyObject" } } false = (0, w) ∧
      (after [(Samples.myObject, true), (Samples.sink, false),
        ({ own := { name := "Test::Other" } }, true)]).lookup "Test::Sink" =
          some ⟨1, Samples.sink, false⟩ ∧
      normalName Samples.myObject.name ≠ normalName Samples.sink.name := by
  let first : Step := ⟨.registerType Samples.myObject true, []⟩
  let second : Step := ⟨.registerType Samples.sink false, []⟩
  have session := (Session.start.step first (Action.runs_of_trace 0 _ _)).step second
    (Action.runs_of_trace 0 _ _)
  obtain ⟨-, -, -, distinct, -, back, again, stays, -, carried⟩ :=
    registered [(Samples.myObject, true), (Samples.sink, false)]
  obtain ⟨moments, w, reaches, table⟩ : ∃ moments w, Reaches moments w ∧
      w.typeTable = after [(Samples.myObject, true), (Samples.sink, false)] :=
    ⟨_, _, .of_session session, carried _ _ (.of_session session) rfl⟩
  have known := back 1 ⟨1, Samples.sink, false⟩ rfl
  have kept := again [] (Samples.myObject, true) [(Samples.sink, false)]
    { own := { name := "Test__MyObject" } } false rfl (by simp) (by decide)
  have later := stays [({ own := { name := "Test::Other" } }, true)] _ _ known
  have apart := distinct 0 1 ⟨0, Samples.myObject, true⟩ ⟨1, Samples.sink, false⟩ rfl rfl (by decide)
  refine ⟨moments, w, reaches, ?_, ?_, later, apart⟩
  · rw [World.lookupType, table]
    exact known
  · rw [World.registerType, table, kept.1, ← table]
    rfl

end TypeTable

end ScriptBridge
