import ScriptBridge.Host.Construction
import ScriptBridge.Program
import ScriptBridge.Proofs.Abreast

/-!
What the members of host objects do in twin worlds. They emit signals and destroy objects, and what
answers that does the same in its turn: the depth to which requests are nested is what the induction is
on.
-/

namespace ScriptBridge

open ScriptBridge.Action (Follows FollowsIn)

/-- What is asked of the host is answered alike in twin worlds. -/
structure Setting.Answers (g : Setting) (n : Nat) : Prop where
  destroy : ∀ o, FollowsIn n (g.twins []) (.ask (.destroy o)) (.ask (.destroy o)) fun _ _ => True
  deliver : ∀ c o args args', List.Forall₂ HostValue.Same args args' →
    FollowsIn n (g.twins []) (.ask (.deliver c o args)) (.ask (.deliver c o args')) fun _ _ => True

variable {g : Setting} {n : Nat}

section Results

variable {news : List Counterpart}

theorem follows_given (v : HostValue) :
    FollowsIn n (g.twins news) (pure v) (pure v) HostValue.Same :=
  .pure fun _ _ twins => ⟨rfl, twins⟩

/-- What is found on the host's side is the same. -/
theorem follows_find {α β : Type} {look : World → α} {f f' : α → Action β}
    {P : β → β → World → World → Prop} (blind : ∀ w, look w.host = look w)
    (rest : ∀ x, Follows n (g.twins news) (f x) (f' x) P (g.twins news)) :
    Follows n (g.twins news) (.view look >>= f) (.view look >>= f') P (g.twins news) :=
  .view_eq (fun w w' twins => by rw [← blind w', twins.host, blind]) rest

/-- What an object has stored under a name. -/
theorem follows_stored {β : Type} (o : ObjectId) (property : String)
    {f f' : Option HostValue → Action β} {P : β → β → World → World → Prop}
    (rest : ∀ old old', old'.map HostValue.bare = old.map HostValue.bare →
      Follows n (g.twins []) (f old) (f' old') P (g.twins [])) :
    Follows n (g.twins []) (.view (Host.stored · o property) >>= f)
      (.view (Host.stored · o property) >>= f') P (g.twins []) :=
  .view (fun w w' twins => by rw [← World.stored_host, ← World.stored_host, twins.host]) rest

theorem follows_note (entry : Json.Tree) :
    FollowsIn n (g.twins news) (.perform (.note entry)) (.perform (.note entry)) fun x x' => x' = x := by
  have noted (w : World) : ((Op.note entry).apply w).2.host =
      { w.host with log := w.host.log ++ [entry] } := rfl
  exact follows_host id id fun w w' host => ⟨rfl, by rw [noted, noted, host]⟩

theorem follows_rename (o : ObjectId) (name : String) :
    FollowsIn n (g.twins news) (.perform (.rename o name)) (.perform (.rename o name))
      fun x x' => x' = x := by
  have renamed (w : World) : ((Op.rename o name).apply w).2.host =
      w.host.modifyObject o fun object => { object with name := name } :=
    w.host_modifyObject o fun _ => rfl
  exact follows_host id id fun w w' host => ⟨rfl, by rw [renamed, renamed, host]⟩

theorem follows_store (o : ObjectId) (property : String) {v v' : HostValue} (same : v.Same v') :
    FollowsIn n (g.twins news) (.perform (.store o property v)) (.perform (.store o property v'))
      fun x x' => x' = x := by
  have stored (w : World) (v : HostValue) : ((Op.store o property v).apply w).2.host =
      w.host.store o property v.bare :=
    w.host_store o property v
  exact follows_host id id fun w w' host => ⟨rfl, by rw [stored, stored, host, same]⟩

end Results

section Members

variable (answers : g.Answers n)
include answers

theorem follows_releaseNative (m : NativeId) :
    FollowsIn n (g.twins []) (releaseNative m) (releaseNative m) fun _ _ => True := by
  have done : FollowsIn n (g.twins []) (pure ()) (pure ()) fun _ _ => True :=
    .pure fun _ _ twins => ⟨trivial, twins⟩
  have drop : FollowsIn n (g.twins []) (.perform (.dropNative m)) (.perform (.dropNative m))
      fun x x' => x'.map Native.bare = x.map Native.bare :=
    .perform fun _ _ twins => twins.dropNative m
  refine drop.next fun x x' same => ?_
  cases x with
  | none =>
    rw [Option.map_eq_none_iff.mp same]
    exact done
  | some native =>
    obtain ⟨native', rfl, same⟩ := Option.map_eq_some_iff.mp same
    cases native with
    | wrapper o owning ownership =>
      cases native' <;> cases same
      cases owning
      · exact done
      · cases ownership
        · exact done
        · refine follows_find (fun w => by simp) fun found => ?_
          dsimp only
          split
          · exact answers.destroy o
          · exact done
    | _ => cases native' <;> first | (cases same; done) | exact done

theorem follows_put (o : ObjectId) (property : String) {v v' : HostValue} (same : v.Same v') :
    FollowsIn n (g.twins []) (Host.put o property v) (Host.put o property v') fun _ _ => True := by
  refine .view (V := fun old old' => old'.map HostValue.bare = old.map HostValue.bare)
    (fun w w' twins => by rw [← World.stored_host, ← World.stored_host, twins.host]) fun old old' equal => ?_
  refine (follows_store o property same).next_eq fun _ => ?_
  · have held : (old'.map (·.natives)).getD [] = (old.map (·.natives)).getD [] := by
      have natives (old : Option HostValue) :
          old.map (·.natives) = (old.map HostValue.bare).map (·.natives) := by
        rw [Option.map_map]
        exact congrArg (Option.map · old) (funext fun v => v.natives_bare.symm)
      rw [natives old', natives old, equal]
    rw [held]
    exact .forM_self _ (follows_releaseNative answers)

/-- An emission reaches the same receivers. -/
theorem follows_emitSignal (o : ObjectId) (signal : String) {args args' : List HostValue}
    (same : List.Forall₂ HostValue.Same args args') :
    FollowsIn n (g.twins []) (emitSignal o signal args) (emitSignal o signal args') fun _ _ => True := by
  refine follows_find (fun w => by simp) fun receivers => ?_
  have outcomes : FollowsIn n (g.twins [])
      (receivers.mapM fun c => .attempt (.ask (.deliver c o args)))
      (receivers.mapM fun c => .attempt (.ask (.deliver c o args')))
      (List.Forall₂ Eq) := by
    refine .mapM_self _ fun c => ?_
    refine (follows_attempt (answers.deliver c o args args' same)).weaken ?_
    rintro x x' (⟨_, _, rfl, rfl, -⟩ | ⟨e, rfl, rfl⟩) <;> rfl
  refine outcomes.next fun x x' equal => ?_
  obtain rfl : x = x' := List.forall₂_eq_eq_eq ▸ equal
  split
  · exact .throw fun _ _ => id
  · exact .pure fun _ _ twins => ⟨trivial, twins⟩

theorem follows_emit (o : ObjectId) (signal : String) {args args' : List HostValue}
    (same : List.Forall₂ HostValue.Same args args') :
    FollowsIn n (g.twins []) (Host.emit o signal args) (Host.emit o signal args') fun _ _ => True := by
  refine follows_check (fun _ _ twins => ?_) fun member => ?_
  · exact twins.same_host (fun w => (w.classOf o).findSignal signal) fun w => by simp
  refine follows_check (fun _ _ twins => ?_) fun _ => ?_
  · exact twins.same_host (·.ensureAlive o) fun w => by simp
  rw [same.length_eq]
  split
  · exact .throw fun _ _ => id
  · exact follows_emitSignal answers o member.text same

/-- A member of a host object does the same on the same arguments. -/
theorem follows_behaviour (o : ObjectId) (signature : String) (body : Behaviour)
    {args args' : List HostValue} (same : List.Forall₂ HostValue.Same args args') :
    FollowsIn n (g.twins []) (body.run o signature args) (body.run o signature args') HostValue.Same := by
  have void : FollowsIn n (g.twins []) (pure HostValue.void) (pure .void) HostValue.Same :=
    follows_given .void
  have first := HostValue.same_getD same
  have text (k : Nat) : (args'.getD k .void).asText = (args.getD k .void).asText :=
    HostValue.congr_same (fun _ _ => rfl) (fun _ _ => rfl) (first k)
  have started : FollowsIn n (g.twins []) (.perform (.start o signature))
      (.perform (.start o signature)) fun x x' => x' = x :=
    follows_host id id fun _ _ host => ⟨rfl, host⟩
  refine started.next_eq fun _ => ?_
  cases body with
  | nothing => exact void
  | const value => exact follows_given value
  | arg k => exact .pure fun _ _ twins => ⟨first k, twins⟩
  | list =>
    exact .pure fun _ _ twins => ⟨congrArg HostValue.list (HostValue.forall₂_same.mp same), twins⟩
  | get property =>
    refine follows_stored o property fun old old' equal => .pure fun _ _ twins => ⟨?_, twins⟩
    have default (old : Option HostValue) :
        (old.getD .void).bare = (old.map HostValue.bare).getD .void := by
      cases old <;> rfl
    exact (default old').trans ((congrArg (·.getD .void) equal).trans (default old).symm)
  | put property => exact (follows_put answers o property (first 0)).next fun _ _ _ => void
  | putEmit property signal =>
    refine follows_stored o property fun old old' equal => ?_
    refine (follows_put answers o property (first 0)).next fun _ _ _ => ?_
    refine .view_eq (fun w w' twins => ?_) fun different => ?_
    · exact twins.differ g.runs equal (congrArg some (first 0))
    · cases different with
      | false => exact void
      | true => exact (follows_emit answers o signal (.cons (first 0) .nil)).next fun _ _ _ => void
  | emit signal => exact (follows_emit answers o signal same).next fun _ _ _ => void
  | log =>
    refine follows_check (fun w w' twins => ?_) fun shown => ?_
    · exact twins.showHostValues g.runs (HostValue.forall₂_same.mp same)
    · refine follows_find (fun w => by simp) fun name => ?_
      exact (follows_note _).next fun _ _ _ => void
  | multiply factor =>
    have number : (args'.getD 0 .void).asDouble = (args.getD 0 .void).asDouble :=
      HostValue.congr_same (fun _ _ => rfl) (fun _ _ => rfl) (first 0)
    rw [number]
    exact follows_given _
  | repeatText =>
    have count : (args'.getD 1 .void).asInt = (args.getD 1 .void).asInt :=
      HostValue.congr_same (fun _ _ => rfl) (fun _ _ => rfl) (first 1)
    rw [text, count]
    exact follows_given _
  | self => exact follows_given _
  | destroy => exact (answers.destroy o).next fun _ _ _ => void
  | fail e => exact .throw fun _ _ => id
  | objectName => exact follows_find (fun w => by simp) fun name => follows_given _
  | rename =>
    rw [text]
    exact (follows_rename o _).next fun _ _ _ => void
  | parent => exact follows_find (fun w => by simp) fun name => follows_given _
  | setParent =>
    have parent : (args'.getD 0 .void).asObject = (args.getD 0 .void).asObject :=
      HostValue.congr_same (fun _ _ => rfl) (fun _ _ => rfl) (first 0)
    rw [parent]
    refine (follows_host id id fun w w' host => ?_).next_eq fun _ =>
      follows_ofExcept.next fun _ _ _ => void
    obtain ⟨given, left⟩ := w.setParent_host o (args.getD 0 .void).asObject
    obtain ⟨given', left'⟩ := w'.setParent_host o (args.getD 0 .void).asObject
    rw [host] at given' left'
    exact ⟨given'.trans given.symm, left'.trans left.symm⟩
  | findChild =>
    rw [text]
    exact follows_find (fun w => by simp) fun name => follows_given _

end Members

section Requests

/-- An object is destroyed alike: its receivers are told, and then its children are destroyed. -/
theorem follows_destroyObject (answers : g.Answers n) (o : ObjectId) :
    FollowsIn n (g.twins []) (destroyObject o) (destroyObject o) fun _ _ => True := by
  have rest : FollowsIn n (g.twins [])
      (Action.perform (.retire o) >>= fun children => children.forM fun child => .ask (.destroy child))
      (Action.perform (.retire o) >>= fun children => children.forM fun child => .ask (.destroy child))
      fun _ _ => True := by
    refine Follows.next_eq (follows_host id id fun w w' host => ?_) fun children =>
      .forM_self _ answers.destroy
    obtain ⟨given, left⟩ := w.retire_host o
    obtain ⟨given', left'⟩ := w'.retire_host o
    rw [host] at given' left'
    exact ⟨given'.trans given.symm, left'.trans left.symm⟩
  refine follows_find (fun w => by simp) fun gone => ?_
  cases gone with
  | true => exact .pure fun _ _ twins => ⟨trivial, twins⟩
  | false =>
    refine follows_find (fun w => by simp) fun declared => ?_
    cases declared with
    | true =>
      exact (follows_attempt (follows_emitSignal answers o "destroyed()" .nil)).discard.next
        fun _ _ _ => rest
    | false => exact rest

/-- A receiver that is no code of scripts gets the same. -/
theorem follows_deliver (answers : g.Answers n) (c : Connection) (sender : ObjectId)
    {args args' : List HostValue} (same : List.Forall₂ HostValue.Same args args') {v v' : World}
    (twins : g.twins [] v v')
    (unscripted : (Moment.request (.deliver c sender args) v).isUnscripted = true) :
    Follows n (fun w w' => w = v ∧ w' = v') (c.deliver sender args) (c.deliver sender args')
      (fun _ _ => g.twins []) (g.twins []) := by
  have here : ∀ w w', w = v ∧ w' = v' → g.twins [] w w' := by
    rintro _ _ ⟨rfl, rfl⟩
    exact twins
  obtain ⟨number, signal, receiver⟩ := c
  cases receiver with
  | script s callable =>
    have closed : v.isOpen s = false := by simpa [Moment.isUnscripted] using unscripted
    refine .view (V := fun x x' => x = false ∧ x' = false) ?_ ?_
    · rintro _ _ ⟨rfl, rfl⟩
      exact ⟨closed, by rw [twins.isOpen, closed]⟩
    · rintro _ _ ⟨rfl, rfl⟩
      exact .throw here
  | slot target signature body arity =>
    have slot : FollowsIn n (g.twins [])
        (Connection.deliver ⟨number, signal, .slot target signature body arity⟩ sender args)
        (Connection.deliver ⟨number, signal, .slot target signature body arity⟩ sender args')
        fun _ _ => True := by
      refine follows_find (fun w => by simp) fun gone => ?_
      cases gone with
      | true => exact .pure fun _ _ twins => ⟨trivial, twins⟩
      | false =>
        exact (follows_behaviour answers target signature body (List.forall₂_take arity same)).discard
    exact slot.mono here (fun _ _ _ _ => And.right) fun _ _ => id

theorem answers (g : Setting) (n : Nat) : g.Answers n := by
  induction n with
  | zero =>
    refine ⟨fun o => .ask (fun w w' twins => .inr ⟨.exhausted, rfl, rfl, twins⟩) ?_,
      fun c o args args' _ => .ask (fun w w' twins => .inr ⟨.exhausted, rfl, rfl, twins⟩) ?_⟩ <;>
    simp
  | succ k ih =>
    refine ⟨fun o => .ask (fun w w' twins => .inr ⟨.exhausted, rfl, rfl, twins⟩) ?_,
      fun c o args args' same => .ask (fun w w' twins => .inr ⟨.exhausted, rfl, rfl, twins⟩) ?_⟩
    · rintro _ ⟨⟩ v v' twins -
      refine (follows_destroyObject ih o).mono ?_ (fun _ _ _ _ => id) fun _ _ => id
      rintro _ _ ⟨rfl, rfl⟩
      exact twins
    · rintro _ ⟨⟩ v v' twins unscripted
      exact (follows_deliver ih c o same twins unscripted).mono (fun _ _ => id)
        (fun _ _ _ _ left => ⟨trivial, left⟩) fun _ _ => id

end Requests

end ScriptBridge
