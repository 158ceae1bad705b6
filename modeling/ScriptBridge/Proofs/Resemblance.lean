import Mathlib.Data.List.Forall2
import ScriptBridge.Proofs.Beside
import ScriptBridge.Proofs.HostSide

/-!
Worlds that resemble each other: the same has been done to two worlds beside each other. The host's
sides are the same, what the heaps held they still hold, and the new cells of one heap stand one to
one for those of the other.
-/

namespace ScriptBridge

open Script (Cell Datum Table)

/-- An engine without its heap, the wrappers that it remembers and its books. -/
def Engine.core (e : Engine) : Engine := { e.quiet with wrappers := [], depth := 0 }

/-- New cells of two heaps of which one stands for the other, and what handles on them are. -/
structure Counterpart where
  kind : HandleKind
  first : Ref
  second : Ref

/-- Values that are the same, or handles on new cells of which one stands for the other. -/
inductive Value.Like (news : List Counterpart) : Value → Value → Prop where
  | same {v v' : Value} (same : v'.bare = v.bare) : Like news v v'
  | made {r r' : Ref} (kind : HandleKind) (a a' : AnchorId) (new : ⟨kind, r, r'⟩ ∈ news) :
    Like news (.handle ⟨kind, r, a⟩) (.handle ⟨kind, r', a'⟩)

inductive Script.Datum.Like (news : List Counterpart) : Datum → Datum → Prop where
  | same (d : Datum) : Like news d d
  | made {r r' : Ref} (kind : HandleKind) (new : ⟨kind, r, r'⟩ ∈ news) :
    Like news (Handle.datum ⟨kind, r, 0⟩) (Handle.datum ⟨kind, r', 0⟩)

/-- New cells of which one stands for the other: userdata of one native object, or tables without a
metatable that have such values under the same keys. -/
inductive Script.Cell.Like (news : List Counterpart) : HandleKind → Cell → Cell → Prop where
  | native (n : NativeId) : Like news .userdata (.native n) (.native n)
  | table {content content' : Table}
    (entries : List.Forall₂ (fun e e' => e'.1 = e.1 ∧ Datum.Like news e.2 e'.2)
      content.entries content'.entries) :
    Like news .table (.table content none) (.table content' none)

namespace World

/-- The wrappers that the engine of a state remembers. -/
def wrappersOf (w : World) (s : StateId) : List (ObjectId × Ref) :=
  ((w.engine? s).map (·.wrappers)).getD []

/-- What an engine refers to: a place that was taken already, or a new cell. -/
def Stands (b : World) (news : List Counterpart) (r r' : Ref) : Prop :=
  (r' = r ∧ ¬ b.Fresh r) ∨ ⟨.userdata, r, r'⟩ ∈ news

/-- Two worlds that came about from one: in the second one a script has been at work in a coroutine. -/
structure Resembles (b : World) (thread : Ref) (news : List Counterpart) (w w' : World) : Prop where
  host : w'.host = w.host
  next : w.engines.next = b.engines.next ∧ w'.engines.next = b.engines.next
  engines : ∀ s, (w.engine? s).map Engine.core = (b.engine? s).map Engine.core ∧
    (w'.engine? s).map Engine.core = (b.engine? s).map Engine.core
  wrappers : ∀ s, List.Forall₂ (fun x x' => x'.1 = x.1 ∧ b.Stands news x.2 x'.2)
    (w.wrappersOf s) (w'.wrappersOf s)
  grows : ∀ r, (w.Fresh r → b.Fresh r) ∧ (w'.Fresh r → b.Fresh r)
  first : ∀ r, w.cell? r = b.cell? r ∨ ∃ p ∈ news, p.first = r
  second : ∀ r, b.Spared thread w' r ∨ ∃ p ∈ news, p.second = r
  fresh : ∀ p ∈ news, b.Fresh p.first ∧ b.Fresh p.second ∧ p.second.owner = p.first.owner
  cells : ∀ p ∈ news, ∃ c c', w.cell? p.first = some c ∧ w'.cell? p.second = some c' ∧
    Cell.Like news p.kind c c'
  distinct : ∀ p ∈ news, ∀ q ∈ news, p.first = q.first ↔ p.second = q.second

/-- Nothing is different but the books of engines. -/
structure Rebooked (w w' : World) : Prop where
  host : w'.host = w.host
  next : w'.engines.next = w.engines.next
  alike : w.Alike w'
  engines : ∀ s, (w'.engine? s).map Engine.core = (w.engine? s).map Engine.core

end World

theorem Script.Cell.Like.not_thread {news : List Counterpart} {kind : HandleKind} {c c' : Cell}
    (like : Like news kind c c') (t : Script.Thread) : c' ≠ .thread t := by
  cases like <;> simp

theorem Script.Cell.Like.kind_table {news : List Counterpart} {kind : HandleKind} {content : Table}
    {metatable : Option Ref} {c' : Cell} (like : Like news kind (.table content metatable) c') :
    kind = .table := by
  cases like
  rfl

section Monotone

variable {news news' : List Counterpart} (more : news ⊆ news')
include more

theorem Script.Datum.Like.mono {d d' : Datum} (like : d.Like news d') : d.Like news' d' := by
  cases like with
  | same => exact .same d
  | made kind new => exact .made kind (more new)

theorem Script.Cell.Like.mono {kind : HandleKind} {c c' : Cell} (like : Like news kind c c') :
    Like news' kind c c' := by
  cases like with
  | native n => exact .native n
  | table entries => exact .table (entries.imp fun _ _ ⟨key, value⟩ => ⟨key, value.mono more⟩)

theorem World.Stands.mono {b : World} {r r' : Ref} (stands : b.Stands news r r') :
    b.Stands news' r r' :=
  stands.imp_right (more ·)

end Monotone

namespace World

variable {b w w₁ w' w₁' : World} {thread : Ref} {news : List Counterpart}

/-- What an engine has that a change leaves as it is. -/
theorem map_engine?_modifyEngine {γ : Type} (part : Engine → γ) (w : World) (s : StateId)
    {f : Engine → Engine} (same : ∀ e, part (f e) = part e) (t : StateId) :
    ((w.modifyEngine s f).engine? t).map part = (w.engine? t).map part := by
  rw [engine?_modifyEngine]
  split
  · rw [Option.map_map]
    exact congrArg (Option.map · _) (funext same)
  · rfl

theorem wrappersOf_modifyEngine (w : World) (s : StateId) {f : Engine → Engine}
    (same : ∀ e, (f e).wrappers = e.wrappers) (t : StateId) :
    (w.modifyEngine s f).wrappersOf t = w.wrappersOf t := by
  rw [wrappersOf, map_engine?_modifyEngine (·.wrappers) w s same, wrappersOf]

theorem wrapperOf?_eq (w : World) (s : StateId) (o : ObjectId) :
    w.wrapperOf? s o = ((w.wrappersOf s).find? (·.1 == o)).bind fun x =>
      (w.wrapped? x.2).bind fun o' => if o' = o then some x.2 else none := by
  unfold wrapperOf? wrappersOf
  cases w.engine? s with
  | none => rfl
  | some e =>
    simp only [Option.bind_eq_bind, Option.bind_some, Option.map_some, Option.getD_some]
    refine congrArg _ (funext fun x => ?_)
    unfold wrapped?
    cases w.cell? x.2 with
    | none => rfl
    | some c =>
      cases c with
      | native n =>
        dsimp only [Option.bind_some, Cell.native?]
        cases w.native? n with
        | none => rfl
        | some native => cases native <;> rfl
      | _ => rfl

theorem core_allocate (w : World) (s : StateId) (c : Cell) (t : StateId) :
    ((w.allocate s c).2.engine? t).map Engine.core = (w.engine? t).map Engine.core :=
  map_engine?_modifyEngine Engine.core w s (by exact fun _ => rfl) t

theorem core_write (w : World) (r : Ref) (c : Cell) (t : StateId) :
    ((w.write r c).engine? t).map Engine.core = (w.engine? t).map Engine.core :=
  map_engine?_modifyEngine Engine.core w r.owner (by exact fun _ => rfl) t

theorem wrappersOf_allocate (w : World) (s : StateId) (c : Cell) (t : StateId) :
    (w.allocate s c).2.wrappersOf t = w.wrappersOf t :=
  wrappersOf_modifyEngine w s (by exact fun _ => rfl) t

theorem wrappersOf_write (w : World) (r : Ref) (c : Cell) (t : StateId) :
    (w.write r c).wrappersOf t = w.wrappersOf t :=
  wrappersOf_modifyEngine w r.owner (by exact fun _ => rfl) t

theorem cell?_cacheWrapper (w : World) (s : StateId) (o : ObjectId) (r r₀ : Ref) :
    (w.cacheWrapper s o r).cell? r₀ = w.cell? r₀ := by
  have heap (t : StateId) :
      ((w.cacheWrapper s o r).engine? t).map (·.heap) = (w.engine? t).map (·.heap) :=
    map_engine?_modifyEngine (·.heap) w s (by exact fun _ => rfl) t
  have look (w : World) : w.cell? r₀ =
      ((w.engine? r₀.owner).map (·.heap)).bind (·.get? r₀.index) := by
    rw [Option.bind_map]
    rfl
  rw [look, look, heap]

theorem Alike.wrappersOf (alike : w.Alike w') (s : StateId) : w'.wrappersOf s = w.wrappersOf s := by
  have look (w : World) : w.wrappersOf s = (((w.engine? s).map Engine.content).map (·.2)).getD [] := by
    rw [Option.map_map]
    rfl
  rw [look, look, alike.engines]

namespace Rebooked

theorem refl (w : World) : w.Rebooked w := ⟨rfl, rfl, .refl w, fun _ => rfl⟩

theorem trans (first : w.Rebooked w₁) (second : w₁.Rebooked w') : w.Rebooked w' where
  host := second.host.trans first.host
  next := second.next.trans first.next
  alike := first.alike.trans second.alike
  engines s := (second.engines s).trans (first.engines s)

theorem modifyEngine (w : World) (s : StateId) {f : Engine → Engine}
    (content : ∀ e : Engine, (f e).content = e.content) (core : ∀ e, (f e).core = e.core) :
    w.Rebooked (w.modifyEngine s f) where
  host := rfl
  next := Store.next_modify ..
  alike := .modifyEngine w s content
  engines := map_engine?_modifyEngine Engine.core w s core

theorem anchor (w : World) (target : Ref) : w.Rebooked (w.anchor target).2 :=
  modifyEngine w target.owner (fun _ => rfl) fun _ => rfl

theorem enter (s : Scope) (w : World) : w.Rebooked (s.enter w) := by
  have opened : w.Rebooked w.openScope := ⟨rfl, rfl, ⟨rfl, rfl, fun _ => rfl⟩, fun _ => rfl⟩
  cases s with
  | operation st => exact opened.trans (modifyEngine _ st (fun _ => rfl) fun _ => rfl)
  | values => exact opened

theorem closeScope (w : World) (result : List Handle) : w.Rebooked (w.closeScope result) := by
  have each (states : List StateId) (held : List Handle) (w : World) :
      w.Rebooked (states.foldl (fun (w : World) s =>
        w.modifyEngine s fun e => e.settle s w.level result held) w) := by
    induction states generalizing w with
    | nil => exact refl w
    | cons s rest ih =>
      exact (modifyEngine w s (f := fun e => e.settle s w.level result held) (fun _ => rfl)
        fun _ => rfl).trans (ih _)
  have settled := each w.openStates w.heldHandles w
  exact ⟨settled.host, settled.next, .closeScope w result, settled.engines⟩

theorem exit (s : Scope) (result : List Handle) (w : World) : w.Rebooked (s.exit result w) := by
  cases s with
  | operation st =>
    exact (closeScope w result).trans (modifyEngine _ st (fun _ => rfl) fun _ => rfl)
  | values => exact closeScope w result

end Rebooked

theorem Fresh.not_first {r : Ref} (fresh : w.Fresh r) (resembles : b.Resembles thread news w w')
    {p : Counterpart} (member : p ∈ news) : p.first ≠ r := by
  rintro rfl
  obtain ⟨c, c', there, -⟩ := resembles.cells p member
  rw [fresh.cell?] at there
  cases there

theorem Fresh.not_second {r : Ref} (fresh : w'.Fresh r) (resembles : b.Resembles thread news w w')
    {p : Counterpart} (member : p ∈ news) : p.second ≠ r := by
  rintro rfl
  obtain ⟨c, c', -, there, -⟩ := resembles.cells p member
  rw [fresh.cell?] at there
  cases there

theorem wrappersOf_of_quiet {s : StateId}
    (same : (w'.engine? s).map Engine.quiet = (w.engine? s).map Engine.quiet) :
    w'.wrappersOf s = w.wrappersOf s := by
  have look (w : World) : w.wrappersOf s =
      (((w.engine? s).map Engine.quiet).map (·.wrappers)).getD [] := by
    rw [Option.map_map]
    rfl
  rw [look, look, same]

namespace Resembles

/-- What a script leaves of a world still is beside it. -/
theorem of_beside (cached : b.Cached) (isolated : b.Isolated) (rebooked : b.Rebooked w)
    (beside : w.Beside thread w') : b.Resembles thread [] w w' where
  host := host_of_outside beside.outside
  next := ⟨rebooked.next, beside.next.trans rebooked.next⟩
  engines s := by
    have core (w : World) : (w.engine? s).map Engine.core = ((w.engine? s).map Engine.quiet).map
        Engine.core := by
      rw [Option.map_map]
      rfl
    refine ⟨rebooked.engines s, ?_⟩
    rw [core, beside.engines, ← core, rebooked.engines]
  wrappers s := by
    rw [wrappersOf_of_quiet (beside.engines s), rebooked.alike.wrappersOf]
    refine List.forall₂_same.mpr fun (o, r) member => ⟨rfl, .inl ⟨rfl, fun fresh => ?_⟩⟩
    unfold World.wrappersOf at member
    cases engine : b.engine? s with
    | none => simp [engine] at member
    | some e =>
      replace member : (o, r) ∈ e.wrappers := by simpa [engine] using member
      have own : r.owner = s := (isolated s e engine).wrappers _ member
      have above : e.heap.next ≤ r.index := fresh e (own ▸ engine)
      have below := (cached s e o r engine member).1
      omega
  grows r := ⟨rebooked.alike.fresh.mp, fun fresh => rebooked.alike.fresh.mp (beside.grows r fresh)⟩
  first r := .inl (rebooked.alike.cell? r)
  second r := by
    refine .inl ?_
    rcases beside.cells r with same | ⟨here, quiet⟩ | ⟨fresh, made⟩
    · exact .same (same.trans (rebooked.alike.cell? r))
    · exact .waits here (by rw [quiet, rebooked.alike.cell?])
    · exact .declared (rebooked.alike.fresh.mp fresh) made
  fresh := by simp
  cells := by simp
  distinct := by simp

variable (resembles : b.Resembles thread news w w')
include resembles

/-- Books of engines do not matter. -/
theorem rebooked (left : w.Rebooked w₁) (right : w'.Rebooked w₁') :
    b.Resembles thread news w₁ w₁' where
  host := right.host.trans (resembles.host.trans left.host.symm)
  next := ⟨left.next.trans resembles.next.1, right.next.trans resembles.next.2⟩
  engines s := ⟨(left.engines s).trans (resembles.engines s).1,
    (right.engines s).trans (resembles.engines s).2⟩
  wrappers s := by
    rw [left.alike.wrappersOf, right.alike.wrappersOf]
    exact resembles.wrappers s
  grows r := ⟨fun fresh => (resembles.grows r).1 (left.alike.fresh.mp fresh),
    fun fresh => (resembles.grows r).2 (right.alike.fresh.mp fresh)⟩
  first r := by
    rw [left.alike.cell?]
    exact resembles.first r
  second r := (resembles.second r).imp_left (·.congr (right.alike.cell? r))
  fresh := resembles.fresh
  cells p member := by
    rw [left.alike.cell?, right.alike.cell?]
    exact resembles.cells p member
  distinct := resembles.distinct

/-- What a script goes on doing in its coroutine does not matter either. -/
theorem beside (onward : w'.Beside thread w₁') : b.Resembles thread news w w₁' where
  host := (host_of_outside onward.outside).trans resembles.host
  next := ⟨resembles.next.1, onward.next.trans resembles.next.2⟩
  engines s := by
    have core (w : World) : (w.engine? s).map Engine.core = ((w.engine? s).map Engine.quiet).map
        Engine.core := by
      rw [Option.map_map]
      rfl
    refine ⟨(resembles.engines s).1, ?_⟩
    rw [core, onward.engines, ← core, (resembles.engines s).2]
  wrappers s := by
    rw [wrappersOf_of_quiet (onward.engines s)]
    exact resembles.wrappers s
  grows r := ⟨(resembles.grows r).1, fun fresh => (resembles.grows r).2 (onward.grows r fresh)⟩
  first := resembles.first
  second r := (resembles.second r).imp_left fun spared =>
    spared.onward (onward.cells r) (resembles.grows r).2
  fresh := resembles.fresh
  cells p member := by
    obtain ⟨c, c', there, there', like⟩ := resembles.cells p member
    exact ⟨c, c', there, onward.mirrors.cell? there' like.not_thread, like⟩
  distinct := resembles.distinct

theorem isOpen (s : StateId) : w'.isOpen s = w.isOpen s := by
  have look (w : World) : w.isOpen s = ((w.engine? s).map Engine.core).isSome := by
    simp [World.isOpen]
  rw [look, look, (resembles.engines s).1, (resembles.engines s).2]

theorem isOpen_first (s : StateId) : w.isOpen s = b.isOpen s := by
  have look (w : World) : w.isOpen s = ((w.engine? s).map Engine.core).isSome := by
    simp [World.isOpen]
  rw [look, look, (resembles.engines s).1]

/-- What happens on the host's side only. -/
theorem of_host (left : w₁.engines = w.engines) (right : w₁'.engines = w'.engines)
    (host : w₁'.host = w₁.host) : b.Resembles thread news w₁ w₁' := by
  have engine : w₁.engine? = w.engine? := funext fun s => by rw [World.engine?, left, World.engine?]
  have engine' : w₁'.engine? = w'.engine? := funext fun s => by
    rw [World.engine?, right, World.engine?]
  have cell : w₁.cell? = w.cell? := funext fun r => by rw [World.cell?, engine, World.cell?]
  have cell' : w₁'.cell? = w'.cell? := funext fun r => by rw [World.cell?, engine', World.cell?]
  have fresh (r : Ref) : w₁.Fresh r ↔ w.Fresh r := by rw [Fresh, engine, Fresh]
  have fresh' (r : Ref) : w₁'.Fresh r ↔ w'.Fresh r := by rw [Fresh, engine', Fresh]
  refine ⟨host, by rw [left, right]; exact resembles.next, ?_, ?_, ?_, ?_, ?_, resembles.fresh, ?_,
    resembles.distinct⟩
  · rw [engine, engine']
    exact resembles.engines
  · intro s
    rw [wrappersOf, wrappersOf, engine, engine']
    exact resembles.wrappers s
  · simp only [fresh, fresh']
    exact resembles.grows
  · rw [cell]
    exact resembles.first
  · exact fun r => (resembles.second r).imp_left (·.congr (by rw [cell']))
  · rw [cell, cell']
    exact resembles.cells

/-- Two new cells stand for each other. -/
theorem allocate {s : StateId} (isOpen : b.isOpen s) {kind : HandleKind} {c c' : Cell}
    (like : Cell.Like news kind c c') :
    b.Resembles thread (⟨kind, (w.allocate s c).1, (w'.allocate s c').1⟩ :: news)
      (w.allocate s c).2 (w'.allocate s c').2 := by
  have free := w.fresh_allocate s c
  have free' := w'.fresh_allocate s c'
  have open₁ : w.isOpen s := by rwa [resembles.isOpen_first]
  have open₂ : w'.isOpen s := by rwa [resembles.isOpen]
  have more : news ⊆ ⟨kind, (w.allocate s c).1, (w'.allocate s c').1⟩ :: news :=
    List.subset_cons_self ..
  have apart {p : Counterpart} (member : p ∈ news) :
      p.first ≠ (w.allocate s c).1 ∧ p.second ≠ (w'.allocate s c').1 :=
    ⟨free.not_first resembles member, free'.not_second resembles member⟩
  refine ⟨resembles.host, ?_, fun t => ?_, fun t => ?_, fun r => ?_, fun r => ?_, fun r => ?_, ?_, ?_,
    ?_⟩
  · simpa [World.allocate, modifyEngine] using resembles.next
  · rw [core_allocate, core_allocate]
    exact resembles.engines t
  · rw [wrappersOf_allocate, wrappersOf_allocate]
    exact (resembles.wrappers t).imp fun _ _ same => ⟨same.1, same.2.mono more⟩
  · exact ⟨fun fresh => (resembles.grows r).1 fresh.of_allocate,
      fun fresh => (resembles.grows r).2 fresh.of_allocate⟩
  · by_cases new : r = (w.allocate s c).1
    · exact .inr ⟨_, List.mem_cons_self, new.symm⟩
    · rw [cell?_allocate_of_ne new]
      refine (resembles.first r).imp_right ?_
      rintro ⟨p, member, same⟩
      exact ⟨p, .tail _ member, same⟩
  · by_cases new : r = (w'.allocate s c').1
    · exact .inr ⟨_, List.mem_cons_self, new.symm⟩
    · refine (resembles.second r).imp (·.congr (cell?_allocate_of_ne new)) ?_
      rintro ⟨p, member, same⟩
      exact ⟨p, .tail _ member, same⟩
  · rintro p (_ | ⟨_, member⟩)
    · exact ⟨(resembles.grows _).1 free, (resembles.grows _).2 free', rfl⟩
    · exact resembles.fresh p member
  · rintro p (_ | ⟨_, member⟩)
    · exact ⟨c, c', cell?_allocate open₁ c, cell?_allocate open₂ c', like.mono more⟩
    · obtain ⟨d, d', there, there', like⟩ := resembles.cells p member
      exact ⟨d, d', by rw [cell?_allocate_of_ne (apart member).1, there],
        by rw [cell?_allocate_of_ne (apart member).2, there'], like.mono more⟩
  · rintro p (_ | ⟨_, member⟩) q (_ | ⟨_, member'⟩)
    · simp
    · exact ⟨fun same => absurd same.symm (apart member').1,
        fun same => absurd same.symm (apart member').2⟩
    · exact ⟨fun same => absurd same (apart member).1, fun same => absurd same (apart member).2⟩
    · exact resembles.distinct p member q member'

/-- What happens to tables of which one stands for the other. -/
theorem write {r r' : Ref} (new : ⟨.table, r, r'⟩ ∈ news) {content content' content₀ content₀' : Table}
    (found : w.cell? r = some (.table content₀ none))
    (found' : w'.cell? r' = some (.table content₀' none))
    (like : Cell.Like news .table (.table content none) (.table content' none)) :
    b.Resembles thread news (w.write r (.table content none)) (w'.write r' (.table content' none)) := by
  have other {w : World} {r r₀ : Ref} {c : Cell} (apart : r₀ ≠ r) :
      (w.write r c).cell? r₀ = w.cell? r₀ := by
    rw [cell?_write, if_neg apart]
  have here {w : World} {r : Ref} {content content₀ : Table}
      (found : w.cell? r = some (.table content₀ none)) :
      (w.write r (.table content none)).cell? r = some (.table content none) := by
    rw [cell?_write, if_pos rfl, found]
    rfl
  refine ⟨resembles.host, ?_, fun t => ?_, fun t => ?_, fun r => ?_, fun r₀ => ?_, fun r₀ => ?_,
    resembles.fresh, fun p member => ?_, resembles.distinct⟩
  · simpa [World.write, modifyEngine] using resembles.next
  · rw [core_write, core_write]
    exact resembles.engines t
  · rw [wrappersOf_write, wrappersOf_write]
    exact resembles.wrappers t
  · exact ⟨fun fresh => (resembles.grows r).1 fresh.of_write,
      fun fresh => (resembles.grows r).2 fresh.of_write⟩
  · by_cases same : r₀ = r
    · exact .inr ⟨_, new, same.symm⟩
    · rw [other same]
      exact resembles.first r₀
  · by_cases same : r₀ = r'
    · exact .inr ⟨_, new, same.symm⟩
    · exact (resembles.second r₀).imp_left (·.congr (other same))
  · have both : p.first = r ↔ p.second = r' := resembles.distinct p member _ new
    by_cases same : p.first = r
    · obtain ⟨c, c', there, -, before⟩ := resembles.cells p member
      have kind : p.kind = .table := by
        rw [same, found] at there
        cases there
        exact before.kind_table
      rw [same, both.mp same, kind]
      exact ⟨_, _, here found, here found', like⟩
    · rw [other same, other (mt both.mpr same)]
      exact resembles.cells p member

/-- The same wrapper is remembered. -/
theorem cacheWrapper (s : StateId) (o : ObjectId) {r r' : Ref} (stands : b.Stands news r r') :
    b.Resembles thread news (w.cacheWrapper s o r) (w'.cacheWrapper s o r') := by
  have alike (w : World) (r : Ref) (t : StateId) :
      ((w.cacheWrapper s o r).engine? t).map Engine.core = (w.engine? t).map Engine.core :=
    map_engine?_modifyEngine Engine.core w s (by exact fun _ => rfl) t
  have fresh (w : World) (r r₀ : Ref) (free : (w.cacheWrapper s o r).Fresh r₀) : w.Fresh r₀ :=
    Fresh.of_modifyEngine (by exact fun _ => Nat.le_refl _) free
  have remembered (w : World) (r : Ref) (t : StateId) : (w.cacheWrapper s o r).wrappersOf t =
      if s = t ∧ w.isOpen t then (o, r) :: (w.wrappersOf t).filter (·.1 != o)
      else w.wrappersOf t := by
    simp only [wrappersOf, World.cacheWrapper, engine?_modifyEngine, World.isOpen]
    by_cases here : s = t
    · subst here
      simp only [if_true, true_and, Option.map_map]
      cases w.engine? s <;> simp
    · simp [here]
  refine ⟨resembles.host, ?_, fun t => ?_, fun t => ?_, fun r₀ => ?_, fun r₀ => ?_, fun r₀ => ?_,
    resembles.fresh, fun p member => ?_, resembles.distinct⟩
  · simpa [World.cacheWrapper, modifyEngine] using resembles.next
  · rw [alike, alike]
    exact resembles.engines t
  · rw [remembered, remembered, resembles.isOpen]
    have before := resembles.wrappers t
    split
    · refine .cons ⟨rfl, stands⟩ (List.rel_filter ?_ before)
      rintro x x' ⟨key, -⟩
      dsimp only
      rw [key]
    · exact before
  · exact ⟨fun free => (resembles.grows r₀).1 (fresh _ _ _ free),
      fun free => (resembles.grows r₀).2 (fresh _ _ _ free)⟩
  · rw [cell?_cacheWrapper]
    exact resembles.first r₀
  · exact (resembles.second r₀).imp_left (·.congr (cell?_cacheWrapper _ _ _ _ _))
  · rw [cell?_cacheWrapper, cell?_cacheWrapper]
    exact resembles.cells p member

/-- Userdata of which one stands for the other have the same native object. -/
theorem native?_of_stands {r r' : Ref} (stands : b.Stands news r r') :
    (w'.cell? r').bind Cell.native? = (w.cell? r).bind Cell.native? := by
  rcases stands with ⟨rfl, taken⟩ | new
  · have left : w.cell? r' = b.cell? r' :=
      (resembles.first r').resolve_right (by
        rintro ⟨p, new, rfl⟩
        exact taken (resembles.fresh p new).1)
    have right : b.Spared thread w' r' :=
      (resembles.second r').resolve_right (by
        rintro ⟨p, new, rfl⟩
        exact taken (resembles.fresh p new).2.1)
    rw [left]
    cases right with
    | same same => rw [same]
    | waits _ quiet =>
      have look (w : World) : (w.cell? r').bind Cell.native? =
          ((w.cell? r').map Cell.quiet).bind Cell.native? := by
        cases w.cell? r' with
        | none => rfl
        | some c => cases c <;> rfl
      rw [look, quiet, ← look]
    | declared fresh => exact absurd fresh taken
  · obtain ⟨c, c', there, there', like⟩ := resembles.cells _ new
    dsimp only at there there' like
    rw [there, there']
    cases like
    rfl

theorem wrapped? {r r' : Ref} (stands : b.Stands news r r') : w'.wrapped? r' = w.wrapped? r := by
  have look (w : World) (n : NativeId) :
      (w.native? n).bind Native.wrapped? = (w.host.native? n).bind Native.wrapped? := by
    simp only [native?_host, Option.bind_map, Function.comp_def, Native.wrapped?_bare]
  unfold World.wrapped?
  rw [resembles.native?_of_stands stands]
  exact congrArg _ (funext fun n => by rw [look w', look w, resembles.host])

/-- What is remembered as the wrapper of an object is the same, or new in both worlds. -/
theorem wrapperOf? (s : StateId) (o : ObjectId) :
    (w.wrapperOf? s o = none ∧ w'.wrapperOf? s o = none) ∨
      ∃ r r', w.wrapperOf? s o = some r ∧ w'.wrapperOf? s o = some r' ∧ b.Stands news r r' := by
  have find {l l' : List (ObjectId × Ref)}
      (related : List.Forall₂ (fun x x' => x'.1 = x.1 ∧ b.Stands news x.2 x'.2) l l') :
      (l.find? (·.1 == o) = none ∧ l'.find? (·.1 == o) = none) ∨ ∃ x x',
        l.find? (·.1 == o) = some x ∧ l'.find? (·.1 == o) = some x' ∧ b.Stands news x.2 x'.2 := by
    induction related with
    | nil => exact .inl ⟨rfl, rfl⟩
    | @cons x x' _ _ first _ ih =>
      rw [List.find?_cons, List.find?_cons, first.1]
      split
      · exact .inr ⟨x, x', rfl, rfl, first.2⟩
      · exact ih
  rw [wrapperOf?_eq, wrapperOf?_eq]
  rcases find (resembles.wrappers s) with ⟨none, none'⟩ | ⟨x, x', found, found', stands⟩
  · exact .inl ⟨by rw [none]; rfl, by rw [none']; rfl⟩
  · rw [found, found', Option.bind_some, Option.bind_some, resembles.wrapped? stands]
    cases w.wrapped? x.2 with
    | none => exact .inl ⟨rfl, rfl⟩
    | some o' =>
      rw [Option.bind_some, Option.bind_some]
      split
      · exact .inr ⟨x.2, x'.2, rfl, rfl, stands⟩
      · exact .inl ⟨rfl, rfl⟩

end Resembles

end World

namespace Value

variable {b w w' : World} {thread : Ref} {news : List Counterpart}

theorem BelongsTo.of_like {s : StateId} {v v' : Value} (belongs : v.BelongsTo s)
    (resembles : b.Resembles thread news w w') (like : v.Like news v') : v'.BelongsTo s := by
  cases like with
  | same same => exact belongs.of_bare same
  | made kind a a' new =>
    rintro _ ⟨⟩
    exact (resembles.fresh _ new).2.2.trans (belongs _ rfl)

theorem Like.then_bare {v v' v'' : Value} (like : v.Like news v') (same : v''.bare = v'.bare) :
    v.Like news v'' := by
  cases like with
  | same same' => exact .same (same.trans same')
  | made kind a a' new =>
    rcases cases_of_bare same with rfl | ⟨_, _, _, a'', ⟨⟩, rfl⟩
    · exact .made kind a a' new
    · exact .made kind a a'' new

theorem like_of_bare {values values' values'' : List Value}
    (like : List.Forall₂ (Value.Like news) values values')
    (same : values''.map bare = values'.map bare) : List.Forall₂ (Value.Like news) values values'' := by
  induction like generalizing values'' with
  | nil => cases values'' with
    | nil => exact .nil
    | cons => cases same
  | cons first _ ih => cases values'' with
    | nil => cases same
    | cons =>
      obtain ⟨same, others⟩ := List.cons_eq_cons.mp same
      exact .cons (first.then_bare same) (ih others)

end Value

end ScriptBridge
