import ScriptBridge.Proofs.Marshal
import ScriptBridge.Proofs.Threads

/-!
Worlds that mirror each other: they differ in what engines keep books about, and in nothing that
scripts or the program around the bridge can get hold of.
-/

namespace ScriptBridge

open Script (Cell Thread)

/-- A cell without the native functions that wait in it. -/
def Script.Cell.quiet : Cell → Cell
  | .thread t => .thread { t with waiting := [] }
  | c => c

/-- An engine without its heap, its anchors and its places for failures. -/
def Engine.quiet (e : Engine) : Engine :=
  { e with heap := {}, anchors := [], nextAnchor := 0, live := 0, stale := [], pool := 0 }

namespace World

/-- A world without its engines and its scopes. -/
def outside (w : World) : World := { w with engines := {}, level := 0 }

/-- A second world has what a first one has, apart from books that engines keep: anchors, places for
failures, and the native functions that wait in coroutines. Its heaps may hold further cells. -/
structure Mirrors (w w' : World) : Prop where
  outside : w'.outside = w.outside
  next : w'.engines.next = w.engines.next
  engines : ∀ s, (w'.engine? s).map Engine.quiet = (w.engine? s).map Engine.quiet
  cells : ∀ r c, w.cell? r = some c → (w'.cell? r).map Cell.quiet = some c.quiet

namespace Mirrors

variable {w w₁ w' : World}

theorem refl (w : World) : w.Mirrors w :=
  ⟨rfl, rfl, fun _ => rfl, fun _ _ found => by rw [found]; rfl⟩

theorem trans (first : w.Mirrors w₁) (second : w₁.Mirrors w') : w.Mirrors w' where
  outside := second.outside.trans first.outside
  next := second.next.trans first.next
  engines s := (second.engines s).trans (first.engines s)
  cells r c found := by
    obtain ⟨c₁, found₁, same⟩ := Option.map_eq_some_iff.mp (first.cells r c found)
    rw [second.cells r c₁ found₁, same]

/-- A cell that is not a coroutine is there as it is. -/
theorem cell? (mirrors : w.Mirrors w') {r : Ref} {c : Cell} (found : w.cell? r = some c)
    (plain : ∀ t, c ≠ .thread t) : w'.cell? r = some c := by
  obtain ⟨c', found', same⟩ := Option.map_eq_some_iff.mp (mirrors.cells r c found)
  rw [found']
  cases c <;> cases c' <;> simp_all [Cell.quiet]

theorem isOpen (mirrors : w.Mirrors w') (s : StateId) : w'.isOpen s = w.isOpen s := by
  have look (w : World) : w.isOpen s = ((w.engine? s).map Engine.quiet).isSome := by
    simp [World.isOpen]
  rw [look, look, mirrors.engines]

theorem native? (mirrors : w.Mirrors w') (n : NativeId) : w'.native? n = w.native? n :=
  congrArg (fun w => w.natives.get? n) mirrors.outside

theorem running (mirrors : w.Mirrors w') (s : StateId) :
    (w'.engine? s).map (·.running) = (w.engine? s).map (·.running) := by
  have look (w : World) : (w.engine? s).map (·.running) =
      ((w.engine? s).map Engine.quiet).map (·.running) := by
    rw [Option.map_map]
    rfl
  rw [look, look, mirrors.engines]

theorem globals (mirrors : w.Mirrors w') {s : StateId} {e : Engine} (engine : w.engine? s = some e) :
    ∃ e', w'.engine? s = some e' ∧ e'.globals = e.globals := by
  obtain ⟨e', there, quiet⟩ := Option.map_eq_some_iff.mp
    ((mirrors.engines s).trans (congrArg (Option.map Engine.quiet) engine))
  have same : e'.quiet.globals = e.quiet.globals := by rw [quiet]
  exact ⟨e', there, same⟩

/-- To mirror goes both ways between worlds of the same cells. -/
theorem symm (mirrors : w.Mirrors w') (same : ∀ r, w'.cell? r = w.cell? r) : w'.Mirrors w where
  outside := mirrors.outside.symm
  next := mirrors.next.symm
  engines s := (mirrors.engines s).symm
  cells r c found := by
    rw [← same, found]
    rfl

/-- An engine changes its books, and its heap only as far as it keeps what is there. -/
theorem modifyEngine (w : World) (s : StateId) {f : Engine → Engine}
    (same : ∀ e, (f e).quiet = e.quiet)
    (keeps : ∀ e i c, w.engine? s = some e → e.heap.get? i = some c →
      ((f e).heap.get? i).map Cell.quiet = some c.quiet) :
    w.Mirrors (w.modifyEngine s f) where
  outside := rfl
  next := Store.next_modify ..
  engines t := by
    rw [engine?_modifyEngine]
    split
    · rw [Option.map_map]
      exact congrArg (Option.map · _) (funext same)
    · rfl
  cells r c found := by
    obtain ⟨e, engine, there⟩ := Option.bind_eq_some_iff.mp found
    simp only [World.cell?, engine?_modifyEngine, engine]
    split
    · rename_i own
      exact keeps e r.index c (own ▸ engine) there
    · simpa using congrArg (Option.map Cell.quiet) there

/-- An engine changes its books only. -/
theorem modifyBooks (w : World) (s : StateId) {f : Engine → Engine}
    (same : ∀ e, (f e).quiet = e.quiet) (heap : ∀ e, (f e).heap = e.heap) :
    w.Mirrors (w.modifyEngine s f) :=
  modifyEngine w s same fun e i c _ there => by rw [heap, there]; rfl

/-- The same change of what two engines have in common. -/
theorem congr_modifyEngine (mirrors : w.Mirrors w') (s : StateId) {f : Engine → Engine}
    (quiet : ∀ e, (f e).quiet = f e.quiet) (heap : ∀ e, (f e).heap = e.heap) :
    (w.modifyEngine s f).Mirrors (w'.modifyEngine s f) where
  outside := mirrors.outside
  next := by simpa [World.modifyEngine] using mirrors.next
  engines t := by
    have pass (w : World) : (w.engine? t).map (fun e => (f e).quiet) =
        ((w.engine? t).map Engine.quiet).map f := by
      rw [Option.map_map]
      exact congrArg (Option.map · _) (funext quiet)
    simp only [engine?_modifyEngine]
    split
    · simp only [Option.map_map, Function.comp_def, pass, mirrors.engines]
    · exact mirrors.engines t
  cells r c found := by
    have there (w : World) : (w.modifyEngine s f).cell? r = w.cell? r := by
      simp only [World.cell?, engine?_modifyEngine]
      split
      · cases w.engine? r.owner <;> simp [heap]
      · rfl
    rw [there] at found ⊢
    exact mirrors.cells r c found

theorem anchor (w : World) (target : Ref) : w.Mirrors (w.anchor target).2 :=
  modifyBooks w target.owner (fun _ => rfl) fun _ => rfl

theorem takePlace (w : World) (s : StateId) : w.Mirrors (w.takePlace s).2 := by
  unfold World.takePlace
  split
  · split
    · exact modifyBooks w s (fun _ => rfl) fun _ => rfl
    · exact refl w
  · exact refl w

theorem givePlace (w : World) (s : StateId) : w.Mirrors ((Op.givePlace s).apply w).2 :=
  modifyBooks w s (fun _ => rfl) fun _ => rfl

theorem allocate (w : World) (s : StateId) (cell : Cell) : w.Mirrors (w.allocate s cell).2 :=
  modifyEngine w s (fun _ => rfl) fun e i c _ there => by
    rw [Store.get?_add, if_neg (Nat.ne_of_lt (Store.lt_next_of_get? there)), there]
    rfl

/-- Which native functions wait in a coroutine is a matter of books. -/
theorem changeThread (w : World) (r : Ref) {f : Thread → Thread}
    (same : ∀ t, { f t with waiting := [] } = { t with waiting := [] }) :
    w.Mirrors (w.changeThread r f) := by
  unfold World.changeThread
  split
  · rename_i t found
    refine modifyEngine w r.owner (fun _ => rfl) fun e i c engine there => ?_
    have here : e.heap.get? r.index = some (.thread t) := by
      simpa [World.cell?, engine] using thread?_eq_some.mp found
    rw [Store.get?_modify]
    split
    · rename_i place
      subst place
      rw [here] at there ⊢
      cases there
      simp [Cell.quiet, Cell.isLike, same]
    · rw [there]
      rfl
  · exact refl w

theorem openScope (w : World) : w.Mirrors w.openScope :=
  ⟨rfl, rfl, fun _ => rfl, fun _ _ found => congrArg (Option.map Cell.quiet) found⟩

theorem closeScope (w : World) (result : List Handle) : w.Mirrors (w.closeScope result) := by
  have each (states : List StateId) (held : List Handle) (w : World) :
      w.Mirrors (states.foldl (fun (w : World) s =>
        w.modifyEngine s fun e => e.settle s w.level result held) w) := by
    induction states generalizing w with
    | nil => exact refl w
    | cons s rest ih =>
      exact (modifyBooks w s (f := fun e => e.settle s w.level result held) (fun _ => rfl)
        fun _ => rfl).trans (ih _)
  have settled := each w.openStates w.heldHandles w
  exact ⟨settled.outside, settled.next, settled.engines, settled.cells⟩

end Mirrors

end World

end ScriptBridge
