import ScriptBridge.Host.Samples
import ScriptBridge.Proofs.Connections
import ScriptBridge.Proofs.Disposal
import ScriptBridge.Proofs.Traces

/-!
How an object is destroyed while receivers of its signal destroy other objects, or the object itself
once more: how often it tells of it, and when that comes to an end.
-/

namespace ScriptBridge

open Relation (TransGen)

/-- The object that a receiver destroys by being called. -/
def Receiver.topples : Receiver → Option ObjectId
  | .slot target _ .destroy _ => some target
  | _ => none

/-- Whether a behaviour neither asks for anything nor ends a stored native object. -/
def Behaviour.Calm : Behaviour → Prop
  | .destroy | .put _ | .putEmit .. | .emit _ => False
  | _ => True

/-- Whether a receiver is a slot that destroys its object, or one that is calm. -/
def Receiver.Plain : Receiver → Prop
  | .slot _ _ body _ => body = .destroy ∨ body.Calm
  | .script .. => False

namespace World

/-- While `a` is alive, some receiver of its `destroyed()` destroys `b`. -/
def Topples (w : World) (a b : ObjectId) : Prop :=
  w.isDestroyed a = false ∧
    ∃ c ∈ w.connectionsOf a "destroyed()", c.receiver.topples = some b

/-- Only plain receivers are told of destructions. -/
def Plain (w : World) : Prop :=
  ∀ a, w.isDestroyed a = false → ∀ c ∈ w.connectionsOf a "destroyed()", c.receiver.Plain

/-- Objects of which each destroys another one of them, or itself, first of all. -/
structure Circles (w : World) (S : ObjectId → Prop) : Prop where
  alive : ∀ a, S a → w.isDestroyed a = false
  tells : ∀ a, S a → w.tells a = true
  first : ∀ a, S a → ∃ c rest b, w.connectionsOf a "destroyed()" = c :: rest ∧
    c.receiver.topples = some b ∧ S b

/-- What destructions and calm receivers do not do: bring an object back, or change the receivers of
one that is alive. -/
structure Settles (w w' : World) : Prop where
  destroyed : ∀ i, w.isDestroyed i = true → w'.isDestroyed i = true
  wires : ∀ i, w'.isDestroyed i = false →
    w'.connectionsOf i "destroyed()" = w.connectionsOf i "destroyed()"

namespace Settles

variable {w w₁ w' : World}

theorem refl (w : World) : w.Settles w := ⟨fun _ => id, fun _ _ => rfl⟩

theorem alive (settles : w.Settles w') {i : ObjectId} (alive : w'.isDestroyed i = false) :
    w.isDestroyed i = false := by
  cases dead : w.isDestroyed i with
  | false => rfl
  | true => exact (settles.destroyed i dead).symm.trans alive

theorem trans (first : w.Settles w₁) (second : w₁.Settles w') : w.Settles w' where
  destroyed := fun i dead => second.destroyed i (first.destroyed i dead)
  wires := fun i alive => (second.wires i alive).trans (first.wires i (second.alive alive))

theorem of_objects (same : w'.objects = w.objects) : w.Settles w' where
  destroyed := by simp [isDestroyed, object?, same]
  wires := by simp [connectionsOf, object?, same]

theorem of_map (destroyed : ∀ i, w'.isDestroyed i = w.isDestroyed i)
    (wires : ∀ i, (w'.object? i).map (·.connectionsOf "destroyed()") =
      (w.object? i).map (·.connectionsOf "destroyed()")) : w.Settles w' where
  destroyed := fun i dead => (destroyed i).trans dead
  wires := fun i _ => congrArg (Option.getD · []) (wires i)

theorem setParent (w : World) (o : ObjectId) (parent : Option ObjectId) :
    w.Settles (w.setParent o parent).2 :=
  of_map (isDestroyed_setParent w o parent) (map_setParent (fun _ _ _ => rfl) w o parent)

theorem rename (w : World) (o : ObjectId) (name : String) :
    w.Settles (w.modifyObject o fun object => { object with name := name }) :=
  of_map (isDestroyed_modifyObject fun _ => rfl) (map_modifyObject fun _ => rfl)

theorem retire (w : World) (o : ObjectId) : w.Settles (w.retire o).2 where
  destroyed := by
    intro i dead
    simp [isDestroyed_retire, dead]
  wires := by
    intro i alive
    rw [isDestroyed_retire, Bool.or_eq_false_iff, beq_eq_false_iff_ne] at alive
    have marked : (w.markDestroyed o).object? i = w.object? i := by
      unfold markDestroyed
      rw [object?_modifyObject, if_neg alive.2]
    have released := (map_releaseChildren (g := (·.connectionsOf "destroyed()"))
      (fun _ _ _ => rfl) _ o i).trans (map_detach (fun _ _ _ => rfl) (w.markDestroyed o) o i)
    rw [marked] at released
    exact congrArg (Option.getD · []) released

end Settles

section

variable {w w' : World} {R : ObjectId → ObjectId → Prop}

theorem Topples.settles {a b : ObjectId} (topples : w'.Topples a b) (settles : w.Settles w') :
    w.Topples a b := by
  obtain ⟨alive, c, member, falls⟩ := topples
  exact ⟨settles.alive alive, c, settles.wires a alive ▸ member, falls⟩

theorem Plain.settles (plain : w.Plain) (settles : w.Settles w') : w'.Plain :=
  fun a alive c member => plain a (settles.alive alive) c (settles.wires a alive ▸ member)

end

end World

/-- Whether a program may come to an end without having nested requests too deeply, and has brought
no object back then. -/
def Returns (a : Action α) (w : World) : Prop :=
  ∃ result w', Ends a w result w' ∧ result ≠ .error .exhausted ∧ w.Settles w'

namespace Returns

variable {α β : Type} {w : World}

theorem pure (a : α) (w : World) : Returns (Pure.pure a) w :=
  ⟨_, w, Ends.pure_iff.mpr ⟨rfl, rfl⟩, by simp, .refl w⟩

theorem throw (e : BridgeError) (w : World) : Returns (Action.throw (α := α) e) w :=
  ⟨_, w, Ends.throw_iff.mpr ⟨rfl, rfl⟩, by simp, .refl w⟩

theorem ofExcept (a : Except BridgeError α) (w : World) : Returns (Action.ofExcept a) w := by
  cases a with
  | ok a => exact pure a w
  | error e => exact throw e w

theorem bind {a : Action α} {f : α → Action β} (first : Returns a w)
    (rest : ∀ x w', w.Settles w' → Returns (f x) w') : Returns (a >>= f) w := by
  obtain ⟨e | x, w₁, ends, mild, settles⟩ := first
  · exact ⟨_, w₁, Ends.then_error ends, by simpa using mild, settles⟩
  · obtain ⟨result, w', ends', mild, settles'⟩ := rest x w₁ settles
    exact ⟨result, w', Ends.then_ok ends ends', mild, settles.trans settles'⟩

theorem perform {o : Op α} {f : α → Action β} (settles : w.Settles (o.apply w).2)
    (rest : Returns (f (o.apply w).1) (o.apply w).2) : Returns (Action.perform o >>= f) w := by
  obtain ⟨result, w', ends, mild, settles'⟩ := rest
  exact ⟨result, w', Ends.perform_bind_iff.mpr ends, mild, settles.trans settles'⟩

theorem attempt [Holding α] {body : Action α} (returns : Returns body (Scope.values.enter w)) :
    Returns (Action.attempt body) w := by
  obtain ⟨result, w₁, ends, mild, settles⟩ := returns
  have entered := World.Settles.of_objects (World.Alike.enter .values w).objects
  have left := World.Settles.of_objects
    (World.Alike.exit .values (Scope.kept handles result) w₁).objects
  refine ⟨_, _, Ends.attempt_iff.mpr ⟨result, w₁, ends, rfl, rfl⟩, ?_,
    (entered.trans settles).trans left⟩
  rcases result with (e | _) | x
  · simp [Fault.caught]
  · exact absurd rfl mild
  · simp [Fault.caught]

theorem ask {r : Request α} (returns : Returns r.program w) : Returns (Action.ask r) w := by
  obtain ⟨result, w', ends, mild, settles⟩ := returns
  refine ⟨result, w', Ends.request_iff.mpr ⟨_, w, .program r w, ?_⟩, mild, settles⟩
  rcases result with e | x
  · exact .inr ⟨e, rfl, ends⟩
  · exact .inl ⟨x, w', ends, Ends.pure_iff.mpr ⟨rfl, rfl⟩⟩

theorem discard {a : Action α} (returns : Returns a w) : Returns (Functor.discard a) w :=
  returns.bind (f := fun _ => Pure.pure ()) fun _ w' _ => pure () w'

theorem mapM {items : List α} {f : α → Action β}
    (each : ∀ item ∈ items, ∀ w', w.Settles w' → Returns (f item) w') :
    Returns (items.mapM f) w := by
  induction items generalizing w with
  | nil => exact pure [] w
  | cons item rest ih =>
    rw [List.mapM_cons]
    refine (each item (.head _) w (.refl w)).bind fun _ w₁ first => ?_
    refine (ih fun item member w' after => each item (.tail _ member) w' (first.trans after)).bind ?_
    exact fun _ w' _ => pure _ w'

theorem forM {items : List α} {f : α → Action Unit}
    (each : ∀ item ∈ items, ∀ w', w.Settles w' → Returns (f item) w') :
    Returns (items.forM f) w := by
  induction items generalizing w with
  | nil => exact pure () w
  | cons item rest ih =>
    refine (each item (.head _) w (.refl w)).bind fun _ w₁ first => ?_
    exact ih fun item member w' after => each item (.tail _ member) w' (first.trans after)

/-- What is calm comes to an end. -/
theorem behaviour {b : Behaviour} (calm : b.Calm) (o : ObjectId) (signature : String)
    (args : List HostValue) (w : World) : Returns (b.run o signature args) w := by
  refine perform (.refl w) ?_
  cases b with
  | destroy | put | putEmit | emit => exact calm.elim
  | nothing | const | arg | list | multiply | repeatText | self => exact pure _ w
  | get | objectName | parent | findChild => exact perform (.refl w) (pure _ w)
  | fail e => exact throw e w
  | rename => exact perform (.rename w o _) (pure _ _)
  | setParent =>
    refine perform (.setParent w o _) ((ofExcept _ _).bind fun _ w' _ => pure _ w')
  | log =>
    refine perform (.refl w) ((ofExcept _ w).bind fun shown w₁ _ => perform (.refl w₁) ?_)
    exact perform (.of_objects rfl) (pure _ _)

/-- A plain receiver comes to an end if the destruction does that it asks for. -/
theorem deliver {c : Connection} (plain : c.receiver.Plain) (sender : ObjectId)
    (args : List HostValue)
    (destroys : ∀ b, c.receiver.topples = some b → Returns (.ask (.destroy b)) w) :
    Returns (c.deliver sender args) w := by
  obtain ⟨id, signal, receiver⟩ := c
  cases receiver with
  | script => exact plain.elim
  | slot target signature body arity =>
    refine perform (.refl w) ?_
    split
    · exact pure () w
    · rcases plain with rfl | calm
      · refine discard (perform (.refl w) ((destroys target rfl).bind fun _ w' _ => pure _ w'))
      · exact discard (behaviour calm ..)

/-- What is known of the receivers and of the objects that are alive, wherever a destruction has
got to. -/
structure Bounded (R : ObjectId → ObjectId → Prop) (live : Finset ObjectId) (w : World) : Prop where
  plain : w.Plain
  falls : ∀ a b, w.Topples a b → R b a
  live : ∀ i, w.isDestroyed i = false → i ∈ live

theorem Bounded.settles {R : ObjectId → ObjectId → Prop} {live : Finset ObjectId} {w' : World}
    (bounded : Bounded R live w) (settles : w.Settles w') : Bounded R live w' where
  plain := bounded.plain.settles settles
  falls := fun a b topples => bounded.falls a b (topples.settles settles)
  live := fun i alive => bounded.live i (settles.alive alive)

/-- What tells of a destruction comes to an end if the destructions do that it leads to. -/
theorem announce {o : ObjectId} (alive : ∀ w', w.Settles w' → ∀ c,
      c ∈ w.connectionsOf o "destroyed()" → c.receiver.Plain ∧
        ∀ b, c.receiver.topples = some b → Returns (.ask (.destroy b)) w') :
    Returns (ScriptBridge.announce o) w := by
  have entered := World.Alike.enter .values w
  have enters (v : World) : v.Settles (Scope.values.enter v) :=
    .of_objects (World.Alike.enter .values v).objects
  refine discard (attempt (perform (.refl _) ((mapM fun c member v settles => ?_).bind ?_)))
  · have told : c ∈ w.connectionsOf o "destroyed()" := by
      simpa [Op.apply, World.connectionsOf, World.object?, entered.objects] using member
    have within := ((enters w).trans settles).trans (enters v)
    obtain ⟨plain, destroys⟩ := alive _ within c told
    exact attempt (ask (deliver plain o [] destroys))
  · intro outcomes w' _
    split
    · exact throw _ w'
    · exact pure () w'

/-- A destruction comes to an end if none of an endless series of objects destroys the next one by
telling of its own destruction: what a receiver destroys is further down, and when the children of
the object are destroyed there is one object less that is alive. -/
theorem destroy {R : ObjectId → ObjectId → Prop} (founded : WellFounded R)
    (live : Finset ObjectId) {o : ObjectId} (bounded : Bounded R live w) :
    Returns (.ask (.destroy o)) w := by
  induction live using Finset.strongInduction generalizing w o with
  | H live fewer =>
  induction o using founded.induction generalizing w with
  | _ o lower =>
  refine ask (perform (.refl w) ?_)
  split
  · exact pure () w
  · rename_i dead
    have alive : w.isDestroyed o = false := (Bool.not_eq_true _).mp dead
    have retiring {v : World} (settles : w.Settles v) : Returns (do
        let children ← Action.perform (.retire o)
        children.forM fun child => .ask (.destroy child)) v := by
      refine perform (.retire v o) (forM fun child _ v' settles' => ?_)
      have still := bounded.settles ((settles.trans (.retire v o)).trans settles')
      refine fewer (live.erase o) (Finset.erase_ssubset (bounded.live o alive))
        ⟨still.plain, still.falls, fun i alive' => Finset.mem_erase.mpr ⟨?_, still.live i alive'⟩⟩
      rintro rfl
      have gone := settles'.alive alive'
      simp [World.isDestroyed_retire, Op.apply] at gone
    refine perform (.refl w) ?_
    split
    · refine (announce fun v settles c member => ⟨bounded.plain o alive c member, ?_⟩).bind ?_
      · exact fun b falls =>
          lower b (bounded.falls o b ⟨alive, c, member, falls⟩) (bounded.settles settles)
      · exact fun _ v settles => retiring settles
    · exact retiring (.refl w)

end Returns

section Runs

variable {o : ObjectId} {w w' : World} {moments : List Moment}

/-- To destroy what is destroyed asks for nothing more. -/
theorem Runs.of_destroy_destroyed (dead : w.isDestroyed o = true)
    (runs : Runs (.ask (.destroy o)) w moments (some (.ok ())) w') :
    moments = [.request (.destroy o) w, .op (.view (·.isDestroyed o)) w] ∧ w' = w := by
  obtain ⟨inner, rfl, destroying⟩ := runs.of_destroy
  obtain ⟨later, rfl, looked⟩ := destroying.of_perform
  rw [show (Op.apply (.view (·.isDestroyed o)) w).1 = true from dead] at looked
  obtain ⟨rfl, -, rfl⟩ := looked.of_pure
  exact ⟨rfl, rfl⟩

/-- A program that catches what it runs has not been exhausted if it has ended otherwise. -/
theorem Fault.ne_exhausted_of_caught {ended : Except Fault α} {x : Except BridgeError α}
    (caught : .ok x = Fault.caught ended) : ended ≠ .error .exhausted := by
  rintro rfl
  cases caught

/-- What has been asked of a receiver has been carried out, unless that nests too deeply. -/
theorem Runs.of_deliver {c : Connection} {args : List HostValue} {result : Except Fault Unit}
    (runs : Runs (.ask (.deliver c o args)) w moments (some result) w')
    (mild : result ≠ .error .exhausted) :
    ∃ later, moments = .request (.deliver c o args) w :: later ∧
      Runs (c.deliver o args) w later (some result) w' := by
  change Runs (.request (.deliver c o args) .pure) w moments _ w' at runs
  cases runs with
  | requestFailed begins inner =>
    obtain ⟨rfl, rfl | rfl⟩ := begins.plain trivial
    · exact ⟨_, rfl, inner⟩
    · cases inner
      exact absurd rfl mild
  | requestDone begins inner rest =>
    cases rest
    obtain ⟨rfl, rfl | rfl⟩ := begins.plain trivial
    · exact ⟨_, by simp, inner⟩
    · cases inner

/-- Each item of a list has had its turn. -/
theorem Runs.of_mapM {α β : Type} {items : List α} {f : α → Action β} {ys : List β}
    (runs : Runs (items.mapM f) w moments (some (.ok ys)) w') {item : α} (member : item ∈ items) :
    ∃ turn v y v', turn <:+: moments ∧ Runs (f item) v turn (some (.ok y)) v' := by
  induction items generalizing w w' moments ys with
  | nil => cases member
  | cons head rest ih =>
    rw [List.mapM_cons] at runs
    obtain ⟨y, w₁, first, later, rfl, here, going⟩ := runs.of_bind
    rcases List.mem_cons.mp member with rfl | member
    · exact ⟨first, w, y, w₁, ⟨[], later, rfl⟩, here⟩
    · obtain ⟨ys, w₂, second, last, rfl, there, -⟩ := going.of_bind
      obtain ⟨turn, v, y, v', within, inner⟩ := ih there member
      exact ⟨turn, v, y, v', within.trans ⟨first, last, by simp⟩, inner⟩

/-- A list of programs that fail only by exhaustion fails only by exhaustion. -/
theorem Runs.of_mapM_error {α β : Type} {items : List α} {f : α → Action β} {e : Fault}
    (catches : ∀ item v during e v', Runs (f item) v during (some (.error e)) v' → e = .exhausted)
    (runs : Runs (items.mapM f) w moments (some (.error e)) w') : e = .exhausted := by
  induction items generalizing w moments with
  | nil => cases runs
  | cons head rest ih =>
    rw [List.mapM_cons] at runs
    rcases runs.of_bind_error with failed | ⟨_, _, _, _, -, -, going⟩
    · exact catches head _ _ _ _ failed
    · rcases going.of_bind_error with failed | ⟨_, _, _, _, -, -, done⟩
      · exact ih failed
      · cases done

/-- A destruction has been told of to all receivers that there were. -/
theorem Runs.receivers_of_announce (runs : Runs (announce o) w moments (some (.ok ())) w') :
    ∃ mapping outcomes v, mapping <:+: moments ∧
      Runs ((w.connectionsOf o "destroyed()").mapM fun c => .attempt (.ask (.deliver c o [])))
        (Scope.values.enter w) mapping (some (.ok outcomes)) v := by
  obtain ⟨x, attempted⟩ := runs.of_discard
  obtain ⟨ended, w₁, emitting, caught, rfl⟩ := attempted.of_attempt
  obtain ⟨later, rfl, going⟩ := emitting.of_perform
  obtain ⟨mapped, v, mapping, rest, rfl, inner, fails⟩ := going.first_of_bind
  have same : (Op.apply (.view (·.connectionsOf o "destroyed()")) (Scope.values.enter w)).1 =
      w.connectionsOf o "destroyed()" := by
    simp only [Op.apply, World.connectionsOf, World.object?, (World.Alike.enter .values w).objects]
  rw [same] at inner
  cases mapped with
  | ok outcomes => exact ⟨mapping, outcomes, v, ⟨[_], rest, rfl⟩, inner⟩
  | error e =>
    obtain rfl := Runs.of_mapM_error (fun _ _ _ _ _ runs => runs.of_attempt_error) inner
    exact absurd (fails _ rfl) (Fault.ne_exhausted_of_caught caught)

/-- Each receiver is called. -/
theorem Runs.delivers_of_announce (runs : Runs (announce o) w moments (some (.ok ())) w')
    {c : Connection} (member : c ∈ w.connectionsOf o "destroyed()") :
    ∃ u, .request (.deliver c o []) u ∈ moments := by
  obtain ⟨mapping, outcomes, v, within, inner⟩ := runs.receivers_of_announce
  obtain ⟨turn, u, _, _, during, attempted⟩ := inner.of_mapM member
  obtain ⟨_, _, delivering, -, -⟩ := attempted.of_attempt
  obtain ⟨later, rfl⟩ := delivering.of_ask
  exact ⟨_, (during.trans within).subset (.head _)⟩

theorem World.Circles.alike {S : ObjectId → Prop} (circles : w.Circles S) (alike : w.Alike w') :
    w'.Circles S where
  alive := fun a member => (alike.isDestroyed a).trans (circles.alive a member)
  tells := fun a member => by
    simpa only [World.tells, World.classOf, World.object?, alike.objects] using
      circles.tells a member
  first := fun a member => by
    simpa only [World.connectionsOf, World.object?, alike.objects] using circles.first a member

/-- A call of a receiver that destroys an object asks for that, if the object is alive. -/
theorem Runs.destroys_of_deliver {c : Connection} {b : ObjectId} {result : Except Fault Unit}
    (topples : c.receiver.topples = some b) (alive : w.isDestroyed b = false)
    (runs : Runs (c.deliver o []) w moments (some result) w') (mild : result ≠ .error .exhausted) :
    ∃ inner v, inner <:+: moments ∧ Runs (.ask (.destroy b)) w inner (some (.ok ())) v := by
  obtain ⟨id, signal, script | ⟨target, signature, body, arity⟩⟩ := c
  · cases topples
  cases body with
  | destroy =>
    obtain rfl := Option.some.inj topples
    obtain ⟨later, rfl, looked⟩ := Runs.of_perform runs
    rw [show (Op.apply (.view (·.isDestroyed target)) w).1 = false from alive] at looked
    obtain ⟨_, _, first, rest, rfl, running, fails⟩ := looked.first_of_bind
    obtain ⟨started, rfl, going⟩ := running.of_perform
    obtain ⟨ended, v, inner, last, rfl, asked, fails'⟩ := going.first_of_bind
    have part : inner <:+: .op (.view (·.isDestroyed target)) w ::
        (.op (.start target signature) w :: (inner ++ last) ++ rest) :=
      ⟨[.op (.view (·.isDestroyed target)) w, .op (.start target signature) w], last ++ rest,
        by simp⟩
    refine ⟨inner, v, part, ?_⟩
    cases ended with
    | ok => exact asked
    | error e =>
      obtain rfl := exhausted_of_destroy asked
      exact absurd (fails _ (fails' _ rfl)) mild
  | _ => cases topples

/-- Objects of which each destroys another one of them first of all are never destroyed. -/
theorem World.Circles.endless {S : ObjectId → Prop} (circles : w.Circles S) (member : S o) :
    ¬ Runs (.ask (.destroy o)) w moments (some (.ok ())) w' := by
  -- The destruction that a receiver asks for takes fewer moments than the one it is told of.
  induction bound : moments.length using Nat.strong_induction_on generalizing o w w' moments with
  | _ size ih =>
  intro runs
  obtain ⟨inner, rfl, destroying⟩ := runs.of_destroy
  obtain ⟨told, w₁, later, rfl, telling, -⟩ :=
    destroying.of_destroyObject (circles.alive o member)
  rw [if_pos (circles.tells o member)] at telling
  obtain ⟨c, rest, b, receivers, topples, next⟩ := circles.first o member
  obtain ⟨mapping, outcomes, v, within, mapped⟩ := telling.receivers_of_announce
  rw [receivers, List.mapM_cons] at mapped
  obtain ⟨y, v₁, first, _, rfl, attempted, -⟩ := mapped.of_bind
  obtain ⟨ended, v₂, delivering, caught, -⟩ := attempted.of_attempt
  have mild := Fault.ne_exhausted_of_caught caught
  obtain ⟨during, rfl, called⟩ := delivering.of_deliver mild
  have alike := (World.Alike.enter .values w).trans (.enter .values (Scope.values.enter w))
  have still := circles.alike alike
  obtain ⟨moments, v₃, part, asked⟩ :=
    called.destroys_of_deliver topples (still.alive b next) mild
  refine ih moments.length ?_ still next rfl asked
  have shorter := part.length_le
  have whole := within.length_le
  simp only [List.length_append, List.length_cons] at bound whole
  omega

/-- Whether an object that is alive is about to be destroyed. -/
def Moment.fells (o : ObjectId) : Moment → Bool
  | .request (.destroy i) w => i == o && !w.isDestroyed o
  | _ => false

/-- Once an object has left the tree nothing destroys it any more. -/
theorem Passage.spares {m : Moment} (passage : Passage w moments w') (gone : w.Gone o)
    (member : m ∈ moments) : m.fells o = false := by
  obtain ⟨before, after, rfl⟩ := List.append_of_mem member
  obtain ⟨reached, -, -⟩ := passage.split
  have dead := (gone.later reached.arrives).2
  unfold Moment.fells
  split
  · simpa [Moment.world] using fun _ => dead
  · rfl

/-- If no chain of receivers leads from an object back to it, all chains end. -/
theorem World.founded_of_untoppled (acyclic : ∀ a, ¬ TransGen w.Topples a a) :
    WellFounded fun b a => w.Topples a b := by
  refine World.founded_of_acyclic (n := w.objects.next) (fun a b topples => ?_) acyclic
  obtain ⟨object, there, -⟩ := World.object_of_alive topples.1
  exact World.lt_next_of_object? there

/-- What a destruction that has come to an end has done with an object that was alive: it has told
all receivers that there were, then the object has left the tree for good. Receivers may have
destroyed the object before that, which is then told of once more each time. -/
theorem Runs.told_of_destroy (sound : w.Sound) (alive : w.isDestroyed o = false)
    (runs : Runs (.ask (.destroy o)) w moments (some (.ok ())) w') :
    ∃ told w₁ later,
      moments = .request (.destroy o) w :: .op (.view (·.isDestroyed o)) w ::
        .op (.view (·.tells o)) w :: (told ++ .op (.retire o) w₁ :: later) ∧
      (if w.tells o then Runs (announce o) w told (some (.ok ())) w₁ else told = [] ∧ w₁ = w) ∧
      (w.tells o = true → ∀ c ∈ w.connectionsOf o "destroyed()",
        ∃ u, .request (.deliver c o []) u ∈ told) ∧
      moments.countP (·.fells o) = told.countP (·.fells o) + 1 := by
  have asks (i : ObjectId) : Action.Safe (.ask (.destroy i)) := .ask trivial fun _ _ _ _ => trivial
  have passage := ((asks o w sound).passage sound runs).1
  obtain ⟨inner, rfl, destroying⟩ := runs.of_destroy
  obtain ⟨told, w₁, later, rfl, telling, going⟩ := destroying.of_destroyObject alive
  refine ⟨told, w₁, later, rfl, telling, fun tells c member => ?_, ?_⟩
  · rw [if_pos tells] at telling
    exact telling.delivers_of_announce member
  · obtain ⟨object, there, -⟩ := World.object_of_alive alive
    have here : Passage w (.request (.destroy o) w :: .op (.view (·.isDestroyed o)) w ::
      .op (.view (·.tells o)) w :: told ++ .op (.retire o) w₁ :: later) w' := passage
    obtain ⟨reached, permitted, -⟩ := here.split
    have sound₁ := reached.arrives.sound sound
    have made : World.Made o w₁ :=
      World.Made.later (World.lt_next_of_object? there) reached.arrives
    have gone : World.Gone o (w₁.retire o).2 :=
      ⟨made.op (.retire o) w₁ trivial, by simp [World.isDestroyed_retire]⟩
    have sound₂ := Op.Permitted.sound (o := .retire o) permitted sound₁
    have after := ((Action.Respects.forM (fun child _ => asks child) _ sound₂).passage sound₂ going).1
    have none : later.countP (·.fells o) = 0 := by
      rw [List.countP_eq_zero]
      intro m member
      simp [after.spares gone member]
    have here : Moment.fells o (.request (.destroy o) w) = true := by simp [Moment.fells, alive]
    have never {β : Type} (op : Op β) (v : World) : Moment.fells o (.op op v) = false := rfl
    simp [here, never, none]

end Runs

variable {w : World} {moments : List Moment}

/-- Wherever one looks, to destroy an object that is destroyed does nothing, and an object that a
destruction has left destroyed stays so. A destruction of an object that is alive tells all its
receivers once, and once more for each time that one of them destroys the object before it is
marked. It comes to an end if only slots are told, which are calm or destroy their objects, and no
chain of those leads back; it never does in a circle of objects that destroy each other first. -/
theorem Reaches.told_of_destruction (reaches : Reaches moments w) (o : ObjectId) :
    (∀ during result w', Runs (.ask (.destroy o)) w during (some result) w' →
      (result = .ok () ∨ result = .error .exhausted) ∧
      (result = .ok () → w.isDestroyed o = true →
        during = [.request (.destroy o) w, .op (.view (·.isDestroyed o)) w] ∧ w' = w) ∧
      (result = .ok () → w.isDestroyed o = false →
        (∀ v, w'.Later v → v.isDestroyed o = true) ∧
        ∃ told w₁ later,
          during = .request (.destroy o) w :: .op (.view (·.isDestroyed o)) w ::
            .op (.view (·.tells o)) w :: (told ++ .op (.retire o) w₁ :: later) ∧
          (if w.tells o then Runs (announce o) w told (some (.ok ())) w₁
            else told = [] ∧ w₁ = w) ∧
          (w.tells o = true → ∀ c ∈ w.connectionsOf o "destroyed()",
            ∃ u, .request (.deliver c o []) u ∈ told) ∧
          during.countP (·.fells o) = told.countP (·.fells o) + 1)) ∧
    (w.Plain → (∀ a, ¬ TransGen w.Topples a a) →
      ∃ during w', Runs (.ask (.destroy o)) w during (some (.ok ())) w') ∧
    ∀ S, w.Circles S → S o → ∀ during result w',
      Runs (.ask (.destroy o)) w during (some result) w' → result = .error .exhausted := by
  have sound := reaches.sound
  have ends {during : List Moment} {result : Except Fault Unit} {w' : World}
      (runs : Runs (.ask (.destroy o)) w during (some result) w') :
      result = .ok () ∨ result = .error .exhausted := by
    cases result with
    | ok => exact .inl rfl
    | error f => exact .inr (congrArg _ (exhausted_of_destroy runs))
  refine ⟨fun during result w' runs => ⟨ends runs, ?_, ?_⟩, fun plain acyclic => ?_, ?_⟩
  · rintro rfl dead
    exact runs.of_destroy_destroyed dead
  · rintro rfl alive
    refine ⟨fun v later => ?_, runs.told_of_destroy sound alive⟩
    have asks : Action.Safe (.ask (.destroy o)) := .ask trivial fun _ _ _ _ => trivial
    obtain ⟨object, there, -⟩ := World.object_of_alive alive
    have made := World.Made.later (World.lt_next_of_object? there)
      ((asks w sound).passage sound runs).1.arrives
    have gone : World.Gone o w' := ⟨made, (destroyed_of_ask sound alive runs).2 rfl⟩
    exact (gone.later later).2
  · have bounded : Returns.Bounded (fun b a => w.Topples a b) (Finset.range w.objects.next) w :=
      ⟨plain, fun _ _ => id, fun i alive => ?_⟩
    · obtain ⟨result, w', ⟨during, runs⟩, mild, -⟩ :=
        Returns.destroy (World.founded_of_untoppled acyclic) _ bounded
      obtain rfl := (ends runs).resolve_right mild
      exact ⟨during, w', runs⟩
    · obtain ⟨object, there, -⟩ := World.object_of_alive alive
      exact Finset.mem_range.mpr (World.lt_next_of_object? there)
  · intro S circles member during result w' runs
    refine (ends runs).resolve_left ?_
    rintro rfl
    exact circles.endless member runs

/-- A parent is destroyed when its child tells of its own destruction, which is noted. -/
def toppling : List Step := [
  ⟨.newObject (.extend (some .root)
    { name := "Guard", members := [⟨"bye", .slot, [], .void, some .destroy⟩] }) "p", ["p"]⟩,
  ⟨.newObject .root "c", ["c"]⟩, ⟨.newObject Samples.sink "s", ["s"]⟩, ⟨.setParent 1 (some 0), []⟩,
  ⟨.connectSlot 1 "destroyed" 0 "bye", []⟩, ⟨.connectSlot 1 "destroyed" 2 "ping", []⟩]

theorem told_of_destruction_toppling : ∃ moments during w',
    Reaches moments (Step.play {} toppling) ∧
    Runs (.ask (.destroy 1)) (Step.play {} toppling) during (some (.ok ())) w' ∧
    during.countP (·.fells 1) = 2 ∧ w'.log.length = 2 ∧ ∀ v, w'.Later v → v.isDestroyed 1 = true := by
  obtain ⟨moments, session⟩ := Session.start.play toppling
  have reaches := Reaches.of_session session
  have runs := Action.runs_of_trace 8 (.ask (.destroy 1)) (Step.play {} toppling)
  obtain ⟨ended, alive, twice, noted⟩ :
      (Action.trace 8 (.ask (.destroy 1)) (Step.play {} toppling)).2.1 = .ok () ∧
      (Step.play {} toppling).isDestroyed 1 = false ∧
      (Action.trace 8 (.ask (.destroy 1)) (Step.play {} toppling)).1.countP (·.fells 1) = 2 ∧
      (Action.trace 8 (.ask (.destroy 1)) (Step.play {} toppling)).2.2.log.length = 2 := by
    decide +kernel
  rw [ended] at runs
  obtain ⟨-, -, told⟩ := (reaches.told_of_destruction 1).1 _ _ _ runs
  exact ⟨moments, _, _, reaches, runs, twice, noted, (told rfl alive).1⟩

end ScriptBridge
