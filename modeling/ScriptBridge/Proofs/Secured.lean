import ScriptBridge.Proofs.Anchored
import ScriptBridge.Proofs.Contract
import ScriptBridge.Proofs.Scripted

/-!
What programs must keep to so that all that the world holds is anchored: they put into the world only
handles that have their anchors, hand on with a request only handles that last, and give out of a scope
only handles that are anchored in it. That engines are kept apart is known already of all programs, so
it is taken for granted here.
-/

namespace ScriptBridge

/-- What a program that has ended leaves, if it changes nothing of what the program around the bridge
keeps. -/
structure World.Upkeep (w w' : World) : Prop where
  onward : w.Onward w'
  holdings : w'.holdings = w.holdings

namespace World

variable {w w₁ w' : World} {h : Handle} {hs : List Handle}

namespace Upkeep

theorem refl (w : World) : w.Upkeep w := ⟨.refl w, rfl⟩

theorem trans (first : w.Upkeep w₁) (second : w₁.Upkeep w') : w.Upkeep w' :=
  ⟨first.onward.trans second.onward, second.holdings.trans first.holdings⟩

theorem apply (w : World) {o : Op β} (leaves : o.LeavesHoldings) : w.Upkeep (o.apply w).2 :=
  ⟨o.onward w, Op.holdings_apply w leaves⟩

theorem exit {sc : Scope} {result : List Handle} (inside : (sc.enter w).Upkeep w₁)
    (booked : w.Booked) : w.Upkeep (sc.exit result w₁) where
  onward := inside.onward.exit booked
  holdings := (OnlyEngines.exit sc result w₁).holdings.trans
    (inside.holdings.trans (OnlyEngines.enter sc w).holdings)

theorem retain (w : World) (s : StateId) (kept : List Nat) : w.Upkeep (w.retain s kept).2 :=
  ⟨.of_sameBooks (.retain w s kept), (OnlyEngines.retain w s kept).holdings⟩

end Upkeep

theorem Lasting.kept (lasting : w.Lasting hs) (upkeep : w.Upkeep w') : w'.Lasting hs :=
  fun h member => (lasting h member).onward upkeep.onward upkeep.holdings

theorem Lasting.enter (lasting : w.Lasting hs) (sc : Scope) : (sc.enter w).Lasting hs :=
  fun h member => (lasting h member).enter sc

theorem Lasting.append {more : List Handle} (first : w.Lasting more) (rest : w.Lasting hs) :
    w.Lasting (more ++ hs) :=
  fun h member => (List.mem_append.mp member).elim (first h) (rest h)

theorem Lasting.subset {fewer : List Handle} (lasting : w.Lasting hs) (sub : fewer ⊆ hs) :
    w.Lasting fewer :=
  fun h member => lasting h (sub member)

theorem Backing.of_nil (nothing : hs = []) : w.Backing hs := nothing ▸ List.forall_mem_nil _

theorem Backing.given {sc : Scope} (backing : w.Backing hs) : (sc.exit hs w).Lasting hs :=
  fun h member => (backing h member).given member

end World

/-- Where a program may start that works in some states with some handles. -/
structure World.Ready (w : World) (ss : List StateId) (hs : List Handle) : Prop where
  sound : w.Sound
  anchored : w.Anchored
  opened : ∀ s ∈ ss, s < w.engines.next
  lasting : w.Lasting hs

namespace World.Ready

variable {w w' : World} {ss : List StateId} {hs : List Handle}

theorem kept (ready : w.Ready ss hs) (upkeep : w.Upkeep w') (sound : w'.Sound)
    (anchored : w'.Anchored) : w'.Ready ss hs :=
  ⟨sound, anchored, fun s member => Nat.lt_of_lt_of_le (ready.opened s member) upkeep.onward.next,
    ready.lasting.kept upkeep⟩

theorem enter (ready : w.Ready ss hs) (sc : Scope) : (sc.enter w).Ready ss hs where
  sound := ready.sound.enter sc
  anchored := ready.anchored.enter sc
  opened := by
    rw [next_enter]
    exact ready.opened
  lasting := ready.lasting.enter sc

theorem subset (ready : w.Ready ss hs) {fewer : List StateId} {less : List Handle}
    (states : fewer ⊆ ss) (handles : less ⊆ hs) : w.Ready fewer less :=
  ⟨ready.sound, ready.anchored, fun s member => ready.opened s (states member),
    ready.lasting.subset handles⟩

theorem gain (ready : w.Ready ss hs) {more : List Handle} (lasting : w.Lasting more) :
    w.Ready ss (more ++ hs) :=
  ⟨ready.sound, ready.anchored, ready.opened, lasting.append ready.lasting⟩

theorem backing (ready : w.Ready ss hs) : w.Backing hs := ready.lasting.backing ready.anchored

theorem states (ready : w.Ready ss hs) {more : List StateId}
    (opened : ∀ s ∈ more, s < w.engines.next) : w.Ready (more ++ ss) hs :=
  ⟨ready.sound, ready.anchored,
    fun s member => (List.mem_append.mp member).elim (opened s) (ready.opened s), ready.lasting⟩

/-- The states of handles that last have been opened. -/
theorem handleStates (ready : w.Ready ss hs) {more : List Handle} (own : more ⊆ hs) :
    w.Ready (more.map Handle.state ++ ss) hs := by
  refine ready.states fun s member => ?_
  obtain ⟨h, there, rfl⟩ := List.mem_map.mp member
  exact (ready.lasting h (own there)).1

end World.Ready

/-- Whether what a request hands on lasts. -/
def Request.Lasting : Request β → World → Prop
  | .script s _, w => s < w.engines.next
  | .deliver c _ args, w =>
    c.receiver.HandleFree ∧ (∀ h ∈ handles c.receiver, h.state < w.engines.next) ∧
      w.Lasting (handles args)
  | .destroy _, _ | .collect _, _ => True

/-- Whether an operation puts no handle into the world and leaves alone what the program around the
bridge keeps. -/
def Op.Idle : Op β → Prop
  | .newObject .. | .store .. | .connect .. | .newNative _ | .registerType .. | .holdValue ..
  | .holdObject .. | .holdEntries .. | .letGo _ => False
  | _ => True

theorem Op.Idle.holdsOnly {o : Op β} (idle : o.Idle) (S : Handle → Prop) : o.HoldsOnly S := by
  cases o <;> first | exact idle.elim | exact trivial

theorem Op.Idle.leaves {o : Op β} (idle : o.Idle) : o.LeavesHoldings := by
  cases o <;> first | exact idle.elim | exact trivial

namespace Action

/-- A program that starts in a world puts only anchored handles into it, whatever becomes of its
requests, and ends as a condition says. -/
def Upholds : {α : Type} → Action α → (Except Fault α → World → Prop) → World → Prop
  | _, .pure a, Q, w => w.Sound → Q (.ok a) w
  | _, .fail f, Q, w => w.Sound → Q (.error f) w
  | _, .op o next, Q, w =>
    w.Sound → o.HoldsOnly w.Backs ∧ (next (o.apply w).1).Upholds Q (o.apply w).2
  | _, .request r next, Q, w =>
    w.Sound → r.Lasting w ∧
      (∀ f w', w'.Sound → w'.Anchored → w.Upkeep w' → Q (.error f) w') ∧
      ∀ b w', w'.Sound → w'.Anchored → w.Upkeep w' → r.Promises w b w' → (next b).Upholds Q w'
  | _, .scope s held body next, Q, w =>
    w.Sound → body.Upholds (fun result w' => w'.Backing (Scope.kept held result) ∧
      (next result).Upholds Q (s.exit (Scope.kept held result) w')) (s.enter w)

namespace Upholds

variable {α β : Type} {w : World}

theorem mono {a : Action α} {Q Q' : Except Fault α → World → Prop} (upholds : a.Upholds Q w)
    (weaker : ∀ result w, Q result w → Q' result w) : a.Upholds Q' w := by
  induction a generalizing w with
  | pure | fail => exact fun sound => weaker _ _ (upholds sound)
  | op o next ih => exact fun sound => ⟨(upholds sound).1, ih _ (upholds sound).2 weaker⟩
  | request r next ih =>
    intro sound
    obtain ⟨lasting, failing, going⟩ := upholds sound
    exact ⟨lasting,
      fun f w' sound anchored upkeep => weaker _ _ (failing f w' sound anchored upkeep),
      fun b w' sound anchored upkeep promised =>
        ih b (going b w' sound anchored upkeep promised) weaker⟩
  | scope s held body next ihBody ihNext =>
    exact fun sound =>
      ihBody (upholds sound) fun result w' after => ⟨after.1, ihNext result after.2 weaker⟩

/-- Worlds are sound where programs start. -/
theorem assuming {a : Action α} {Q : Except Fault α → World → Prop}
    (upholds : w.Sound → a.Upholds Q w) : a.Upholds Q w := by
  cases a <;> exact fun sound => upholds sound sound

theorem bind {a : Action α} {f : α → Action β} {P : Except Fault α → World → Prop}
    {Q : Except Fault β → World → Prop} (first : a.Upholds P w)
    (rest : ∀ x w', w'.Sound → P (.ok x) w' → (f x).Upholds Q w')
    (failed : ∀ e w', P (.error e) w' → Q (.error e) w') : (a >>= f).Upholds Q w := by
  change (a.bind f).Upholds Q w
  induction a generalizing w with
  | pure a => exact assuming fun sound => rest a w sound (first sound)
  | fail e => exact fun sound => failed e w (first sound)
  | op o next ih => exact fun sound => ⟨(first sound).1, ih _ (first sound).2 rest failed⟩
  | request r next ih =>
    intro sound
    obtain ⟨lasting, failing, going⟩ := first sound
    exact ⟨lasting,
      fun f w' sound anchored upkeep => failed f w' (failing f w' sound anchored upkeep),
      fun b w' sound anchored upkeep promised =>
        ih b (going b w' sound anchored upkeep promised) rest failed⟩
  | scope s held body next ihBody ihNext =>
    exact fun sound => Upholds.mono (a := body) (first sound) fun result w' after =>
      ⟨after.1, ihNext result after.2 rest failed⟩

/-- All that the world holds is anchored again when such a program has ended. -/
theorem standing {a : Action α} {Q : Except Fault α → World → Prop} (upholds : a.Upholds Q w)
    (anchored : w.Anchored) :
    a.Upholds (fun result w' => w'.Sound ∧ w'.Anchored ∧ Q result w') w := by
  induction a generalizing w with
  | pure | fail => exact fun sound => ⟨sound, anchored, upholds sound⟩
  | op o next ih =>
    intro sound
    obtain ⟨own, going⟩ := upholds sound
    exact ⟨own, ih _ going (anchored.apply own)⟩
  | request r next ih =>
    intro sound
    obtain ⟨lasting, failing, going⟩ := upholds sound
    exact ⟨lasting,
      fun f w' sound anchored upkeep => ⟨sound, anchored, failing f w' sound anchored upkeep⟩,
      fun b w' sound anchored upkeep promised =>
        ih b (going b w' sound anchored upkeep promised) anchored⟩
  | scope s held body next ihBody ihNext =>
    intro sound
    refine (ihBody (upholds sound) (anchored.enter s)).mono ?_
    rintro result w' ⟨-, anchored, backing, after⟩
    exact ⟨backing, ihNext result after (anchored.exit s _)⟩

/-- What is known of a program's end otherwise holds there, too. -/
theorem and_meets {a : Action α} {Q R : Except Fault α → World → Prop} (upholds : a.Upholds Q w)
    (meets : a.Meets R w) : a.Upholds (fun result w' => Q result w' ∧ R result w') w := by
  induction a generalizing w with
  | pure | fail => exact fun sound => ⟨upholds sound, meets⟩
  | op o next ih =>
    intro sound
    obtain ⟨own, going⟩ := upholds sound
    exact ⟨own, ih _ going meets.2⟩
  | request r next ih =>
    intro sound
    obtain ⟨lasting, failing, going⟩ := upholds sound
    exact ⟨lasting,
      fun f w' sound anchored upkeep => ⟨failing f w' sound anchored upkeep, meets.2.1 f w' sound⟩,
      fun b w' sound anchored upkeep promised =>
        ih b (going b w' sound anchored upkeep promised) (meets.2.2 b w' sound promised)⟩
  | scope s held body next ihBody ihNext =>
    intro sound
    refine (ihBody (upholds sound) meets).mono ?_
    rintro result w' ⟨⟨backing, after⟩, going⟩
    exact ⟨backing, ihNext result after going⟩

end Upholds

/-- A program that starts in a world secures what it puts there, and gives what satisfies a
condition. -/
def SecuresAt (w : World) (a : Action α) (P : World → α → Prop) : Prop :=
  a.Upholds (fun result w' => w.Upkeep w' ∧ ∀ x, result = .ok x → P w' x) w

/-- A program secures what it puts into the world wherever some states have been opened and some handles
last, and gives what satisfies a condition. -/
def Secures (ss : List StateId) (hs : List Handle) (a : Action α) (P : World → α → Prop) : Prop :=
  ∀ w, w.Ready ss hs → a.SecuresAt w P

/-- Nothing is required of what the program gives. -/
abbrev Careful (ss : List StateId) (hs : List Handle) (a : Action α) : Prop :=
  a.Secures ss hs fun _ _ => True

/-- What the program gives lasts. -/
abbrev Grants [Holding α] (ss : List StateId) (hs : List Handle) (a : Action α) : Prop :=
  a.Secures ss hs fun w x => w.Lasting (handles x)

/-- What the program gives is anchored as long as the world holds it. -/
abbrev Lends [Holding α] (ss : List StateId) (hs : List Handle) (a : Action α) : Prop :=
  a.Secures ss hs fun w x => w.Backing (handles x)

namespace SecuresAt

variable {α β : Type} {w : World} {ss : List StateId} {hs : List Handle}
  {P : World → α → Prop} {Q : World → β → Prop}

theorem pure {x : α} (holds : P w x) : (Pure.pure x : Action α).SecuresAt w P := by
  refine fun _ => ⟨.refl w, ?_⟩
  rintro _ ⟨⟩
  exact holds

theorem fail (f : Fault) : (Action.fail f : Action α).SecuresAt w P :=
  fun _ => ⟨.refl w, fun _ none => by cases none⟩

theorem throw (e : BridgeError) : (Action.throw e : Action α).SecuresAt w P := fail _

theorem ofExcept {a : Except BridgeError α} (holds : ∀ x, a = .ok x → P w x) :
    (Action.ofExcept a).SecuresAt w P := by
  cases a with
  | ok x => exact pure (holds x rfl)
  | error e => exact throw e

theorem mono {P' : World → α → Prop} {a : Action α} (ready : w.Ready ss hs)
    (secures : a.SecuresAt w P') (weaker : ∀ w x, w.Ready ss hs → P' w x → P w x) :
    a.SecuresAt w P := by
  refine (Upholds.standing secures ready.anchored).mono ?_
  rintro result w' ⟨sound, anchored, upkeep, holds⟩
  exact ⟨upkeep, fun x same => weaker w' x (ready.kept upkeep sound anchored) (holds x same)⟩

theorem bind {a : Action α} {f : α → Action β} (ready : w.Ready ss hs) (first : a.SecuresAt w P)
    (rest : ∀ x w', w'.Ready ss hs → P w' x → (f x).SecuresAt w' Q) : (a >>= f).SecuresAt w Q := by
  refine Upholds.bind (Upholds.standing first ready.anchored) ?_ ?_
  · rintro x w' - ⟨sound, anchored, upkeep, holds⟩
    refine Upholds.mono (rest x w' (ready.kept upkeep sound anchored) (holds x rfl)) ?_
    exact fun result w'' after => ⟨upkeep.trans after.1, after.2⟩
  · rintro e w' ⟨-, -, upkeep, -⟩
    exact ⟨upkeep, fun _ none => by cases none⟩

/-- A sequence that begins with an operation. -/
theorem next {o : Op α} {f : α → Action β} (own : o.HoldsOnly w.Backs) (leaves : o.LeavesHoldings)
    (rest : (f (o.apply w).1).SecuresAt (o.apply w).2 Q) : (perform o >>= f).SecuresAt w Q := by
  refine fun _ => ⟨own, Upholds.mono rest ?_⟩
  exact fun result w' after => ⟨.trans (.apply w leaves) after.1, after.2⟩

/-- A sequence that begins with a look at the world. -/
theorem view {look : World → α} {f : α → Action β} (rest : (f (look w)).SecuresAt w Q) :
    (Action.view look >>= f).SecuresAt w Q :=
  fun _ => ⟨trivial, rest⟩

end SecuresAt

namespace Secures

variable {α β : Type} {ss : List StateId} {hs : List Handle} {P : World → α → Prop}
  {Q : World → β → Prop}

theorem pure {x : α} (holds : ∀ w, w.Ready ss hs → P w x) :
    (Pure.pure x : Action α).Secures ss hs P :=
  fun w ready => .pure (holds w ready)

theorem done (x : α) : (Pure.pure x : Action α).Careful ss hs := pure fun _ _ => trivial

theorem fail (f : Fault) : (Action.fail f : Action α).Secures ss hs P := fun _ _ => .fail f

theorem throw (e : BridgeError) : (Action.throw e : Action α).Secures ss hs P := fail _

theorem ofExcept {a : Except BridgeError α} (holds : ∀ x, a = .ok x → ∀ w, w.Ready ss hs → P w x) :
    (Action.ofExcept a).Secures ss hs P :=
  fun w ready => .ofExcept fun x same => holds x same w ready

theorem check (a : Except BridgeError α) : (Action.ofExcept a).Careful ss hs :=
  ofExcept fun _ _ _ _ => trivial

theorem weaken {fewer : List StateId} {less : List Handle} {a : Action α}
    (secures : a.Secures fewer less P) (states : fewer ⊆ ss) (handles : less ⊆ hs) :
    a.Secures ss hs P :=
  fun w ready => secures w (ready.subset states handles)

/-- The states of handles that last have been opened. -/
theorem inStates {more : List Handle} {a : Action α} (own : more ⊆ hs)
    (secures : a.Secures (more.map Handle.state ++ ss) hs P) : a.Secures ss hs P :=
  fun w ready => secures w (ready.handleStates own)

theorem mono {P' : World → α → Prop} {a : Action α} (secures : a.Secures ss hs P')
    (weaker : ∀ w x, w.Ready ss hs → P' w x → P w x) : a.Secures ss hs P :=
  fun w ready => (secures w ready).mono ready weaker

theorem careful {a : Action α} (secures : a.Secures ss hs P) : a.Careful ss hs :=
  secures.mono fun _ _ _ _ => trivial

/-- What lasts is anchored. -/
theorem lends [Holding α] {a : Action α} (grants : a.Grants ss hs) : a.Lends ss hs :=
  grants.mono fun _ _ ready lasting => lasting.backing ready.anchored

/-- There are no handles in what a program gives. -/
theorem lendsNothing [Holding α] {a : Action α} (careful : a.Careful ss hs)
    (nothing : ∀ x : α, handles x = []) : a.Lends ss hs :=
  careful.mono fun _ x _ _ => .of_nil (nothing x)

/-- What is known of what a program gives. -/
theorem and_respects {holds : α → Prop} {a : Action α} (secures : a.Secures ss hs P)
    (respects : a.Respects holds) : a.Secures ss hs fun w x => P w x ∧ holds x := by
  intro w ready
  refine (Upholds.and_meets (secures w ready) (respects w ready.sound)).mono ?_
  rintro result w' ⟨⟨upkeep, own⟩, -, known⟩
  exact ⟨upkeep, fun x same => ⟨own x same, known x same⟩⟩

/-- A careful program of which it is known what it gives. -/
theorem giving {holds : α → Prop} {a : Action α} (careful : a.Careful ss hs)
    (respects : a.Respects holds) : a.Secures ss hs fun _ x => holds x :=
  (careful.and_respects respects).mono fun _ _ _ both => both.2

theorem bind {a : Action α} {f : α → Action β} (first : a.Secures ss hs P)
    (rest : ∀ x w, w.Ready ss hs → P w x → (f x).SecuresAt w Q) : (a >>= f).Secures ss hs Q :=
  fun w ready => .bind ready (first w ready) rest

/-- A sequence whose first program may give anything. -/
theorem after {a : Action α} {f : α → Action β} (first : a.Secures ss hs P)
    (rest : ∀ x, (f x).Secures ss hs Q) : (a >>= f).Secures ss hs Q :=
  first.bind fun x w ready _ => rest x w ready

/-- A sequence that goes on with something that lasts. -/
theorem gain [Holding α] {a : Action α} {f : α → Action β} (first : a.Grants ss hs)
    (rest : ∀ x, (f x).Secures ss (handles x ++ hs) Q) : (a >>= f).Secures ss hs Q :=
  first.bind fun x w ready own => rest x w (ready.gain own)

/-- A sequence that goes on with something that is so in every world. -/
theorem knowing {holds : α → Prop} {a : Action α} {f : α → Action β}
    (first : a.Secures ss hs fun _ x => holds x) (rest : ∀ x, holds x → (f x).Secures ss hs Q) :
    (a >>= f).Secures ss hs Q :=
  first.bind fun x w ready known => rest x known w ready

theorem map {a : Action α} {f : α → β} (first : a.Secures ss hs P)
    (gives : ∀ x w, w.Ready ss hs → P w x → Q w (f x)) : (f <$> a).Secures ss hs Q :=
  first.bind fun x w ready holds => .pure (gives x w ready holds)

theorem discard {a : Action α} (first : a.Secures ss hs P) : (Functor.discard a).Careful ss hs :=
  first.after fun _ => done _

/-- A sequence that begins with a look at the world. -/
theorem of_view {look : World → α} {f : α → Action β}
    (rest : ∀ w, w.Ready ss hs → (f (look w)).SecuresAt w Q) :
    (Action.view look >>= f).Secures ss hs Q :=
  fun w ready => .view (rest w ready)

/-- What is seen of the world does not matter. -/
theorem look {seen : World → α} {f : α → Action β} (rest : ∀ x, (f x).Secures ss hs Q) :
    (Action.view seen >>= f).Secures ss hs Q :=
  of_view fun w ready => rest _ w ready

theorem view {look : World → α} (gives : ∀ w, w.Ready ss hs → P w (look w)) :
    (Action.view look).Secures ss hs P :=
  of_view (f := Action.pure) fun w ready => .pure (gives w ready)

/-- A sequence that begins with an operation that puts only anchored handles into the world. -/
theorem put {o : Op α} {f : α → Action β} (own : ∀ w : World, w.Ready ss hs → o.HoldsOnly w.Backs)
    (leaves : o.LeavesHoldings) (rest : ∀ x, (f x).Secures ss hs Q) :
    (perform o >>= f).Secures ss hs Q := by
  intro w ready
  have backed := own w ready
  refine fun sound => ⟨backed, Upholds.mono (Upholds.assuming fun sound' => rest _ _ ?_) ?_⟩
  · exact ready.kept (.apply w leaves) sound' (ready.anchored.apply backed)
  · exact fun result w' after => ⟨.trans (.apply w leaves) after.1, after.2⟩

/-- A sequence that begins with an operation that puts nothing into the world. -/
theorem next {o : Op α} {f : α → Action β} (idle : o.Idle) (rest : ∀ x, (f x).Secures ss hs Q) :
    (perform o >>= f).Secures ss hs Q :=
  put (fun _ _ => idle.holdsOnly _) idle.leaves rest

theorem perform {o : Op α} (own : ∀ w : World, w.Ready ss hs → o.HoldsOnly w.Backs)
    (leaves : o.LeavesHoldings) : (Action.perform o).Careful ss hs :=
  put own leaves done

theorem act {o : Op α} (idle : o.Idle) : (Action.perform o).Careful ss hs := next idle done

/-- An operation that puts nothing into the world and gives what satisfies a condition. -/
theorem obtain {o : Op α} {holds : α → Prop} (idle : o.Idle) (gives : ∀ w, holds (o.apply w).1) :
    (Action.perform o).Secures ss hs fun _ x => holds x :=
  fun w _ => .next (idle.holdsOnly _) idle.leaves (.pure (gives w))

theorem ask {r : Request α} (own : ∀ w, w.Ready ss hs → r.Lasting w) {holds : α → Prop}
    (promised : ∀ w b w', r.Promises w b w' → holds b) :
    (Action.ask r).Secures ss hs fun _ b => holds b := by
  refine fun w ready _ => ⟨own w ready, fun _ _ _ _ upkeep => ⟨upkeep, fun _ none => by cases none⟩,
    fun b w' _ _ upkeep promise _ => ⟨upkeep, ?_⟩⟩
  rintro _ ⟨⟩
  exact promised w b w' promise

/-- A request of which the outcome does not matter. -/
theorem request {r : Request α} (own : ∀ w, w.Ready ss hs → r.Lasting w) :
    (Action.ask r).Careful ss hs :=
  fun w ready _ => ⟨own w ready, fun _ _ _ _ upkeep => ⟨upkeep, fun _ none => by cases none⟩,
    fun _ _ _ _ upkeep _ _ => ⟨upkeep, fun _ _ => trivial⟩⟩

/-- A scope that gives out what is anchored in it. -/
theorem scope {s : Scope} {held : α → List Handle} {body : Action α}
    {next : Except Fault α → Action β}
    (inside : body.Secures ss hs fun w x => w.Backing (held x))
    (after : ∀ x, (next (.ok x)).Secures ss (held x ++ hs) Q)
    (failed : ∀ f, (next (.error f)).Secures ss hs Q) :
    (Action.scope s held body next).Secures ss hs Q := by
  intro w ready _
  have entered := ready.enter s
  refine (Upholds.standing (inside _ entered) entered.anchored).mono ?_
  rintro result w' ⟨sound, anchored, upkeep, backing⟩
  have ended : w.Upkeep (s.exit (Scope.kept held result) w') := upkeep.exit ready.anchored.booked
  have left := ready.kept ended (sound.exit s _) (anchored.exit s _)
  cases result with
  | error f =>
    refine ⟨List.forall_mem_nil _, Upholds.mono (failed f _ left) ?_⟩
    exact fun result w'' ends => ⟨ended.trans ends.1, ends.2⟩
  | ok x =>
    have given := backing x rfl
    refine ⟨given, Upholds.mono (after x _ (left.gain given.given)) ?_⟩
    exact fun result w'' ends => ⟨ended.trans ends.1, ends.2⟩

/-- What a scope has given lasts. -/
private theorem given [Holding α] (x : α) :
    (Pure.pure x : Action α).Grants ss (handles x ++ hs) :=
  pure fun _ ready => ready.lasting.subset (List.subset_append_left ..)

theorem within [Holding α] {s : Scope} {body : Action α} (inside : body.Lends ss hs) :
    (Action.within s body).Grants ss hs :=
  scope inside given fun f => fail f

theorem operation [Holding α] {s : StateId} {body : Action α} (inside : body.Lends ss hs) :
    (Action.operation s body).Grants ss hs :=
  within inside

/-- An operation of which the result does not matter. -/
theorem enclosed {s : StateId} {body : Action Unit} (inside : body.Careful ss hs) :
    (Action.operation s body).Careful ss hs :=
  (operation (inside.lendsNothing fun _ => rfl)).careful

theorem attempt [Holding α] {body : Action α} (inside : body.Lends ss hs) :
    (Action.attempt body).Grants ss hs := by
  refine scope inside (fun x => given (Except.ok x)) fun f => ?_
  cases f with
  | failed e => exact pure fun _ _ _ none => by cases none
  | exhausted => exact fail _

theorem forM {items : List α} {f : α → Action PUnit}
    (each : ∀ item ∈ items, (f item).Careful ss hs) : (items.forM f).Careful ss hs := by
  induction items with
  | nil => exact done _
  | cons item rest ih =>
    exact after (each item List.mem_cons_self) fun _ =>
      ih fun item member => each item (List.mem_cons_of_mem _ member)

theorem mapM [Holding β] {items : List α} {f : α → Action β}
    (each : ∀ item ∈ items, (f item).Grants ss hs) : (items.mapM f).Grants ss hs := by
  induction items generalizing hs with
  | nil => exact pure fun _ _ _ none => by cases none
  | cons item rest ih =>
    rw [List.mapM_cons]
    refine gain (each item List.mem_cons_self) fun b => gain (ih fun item member => ?_) fun bs => ?_
    · exact (each item (List.mem_cons_of_mem _ member)).weaken (List.Subset.refl _)
        (List.subset_append_right ..)
    · refine pure fun _ ready h member => ready.lasting h ?_
      obtain ⟨x, there, own⟩ := mem_handles_list.mp member
      rcases List.mem_cons.mp there with rfl | later
      · exact List.mem_append_right _ (List.mem_append_left _ own)
      · exact List.mem_append_left _ (mem_handles_list.mpr ⟨x, later, own⟩)

/-- A sequence of programs of which the results do not matter. -/
theorem carefulM {items : List α} {f : α → Action β}
    (each : ∀ item ∈ items, (f item).Careful ss hs) : (items.mapM f).Careful ss hs := by
  induction items with
  | nil => exact done _
  | cons item rest ih =>
    rw [List.mapM_cons]
    exact after (each item List.mem_cons_self) fun _ => after
      (ih fun item member => each item (List.mem_cons_of_mem _ member)) fun _ => done _

/-- What an engine does for a script is careful if the native code is that it calls. -/
theorem of_scripted {N : List Script.Datum → Prop} {s : StateId} {holds : α → Prop} {a : Action α}
    (scripted : a.Scripted N s holds)
    (natives : ∀ {β : Type} {body : Action β}, OfNative N s body → body.Careful ss hs) :
    a.Secures ss hs fun _ x => holds x := by
  induction a generalizing hs with
  | pure a => exact pure fun _ _ => scripted
  | fail f => exact fail f
  | op o rest ih =>
    change (Action.perform o >>= rest).Secures ss hs _
    refine next ?_ fun b => ih b (scripted.2 b) natives
    have engine := scripted.1
    cases o <;> first | exact trivial | exact engine.elim
  | request r rest ih =>
    change (Action.ask r >>= rest).Secures ss hs _
    refine after (request fun w _ => ?_) fun b => ih b (scripted.2 b) natives
    cases r with
    | script | deliver => exact scripted.1.elim
    | _ => exact trivial
  | scope sc held body _ _ ih =>
    obtain ⟨rfl, native, nothing, rest⟩ := scripted
    have inside : body.Secures ss hs fun w x => w.Backing (held x) :=
      (natives native).mono fun w x _ _ => .of_nil (nothing x)
    refine scope inside (fun x => ?_) fun f => ih _ (rest _) natives
    rw [nothing]
    exact ih _ (rest _) natives

end Secures

end Action

end ScriptBridge
