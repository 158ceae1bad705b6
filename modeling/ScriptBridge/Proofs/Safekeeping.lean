import ScriptBridge.Proofs.Secured
import ScriptBridge.Proofs.Wrappers

/-!
Every program of the bridge puts only anchored handles into the world: what it makes is anchored in its
scope, and what it is given lasts.
-/

namespace ScriptBridge

open ScriptBridge.Action (Careful Grants Lends Secures SecuresAt)
open Script (Datum OwnedData)

section

variable {ss : List StateId} {hs : List Handle} {s : StateId}

/-- An anchor that is made for an object of an open state is one of the anchors of that state. -/
theorem World.mem_anchor {w : World} {target : Ref} (isOpen : w.isOpen target.owner) :
    ⟨(w.anchor target).1, target, some w.level⟩ ∈ (w.anchor target).2.anchorsOf target.owner := by
  obtain ⟨e, found⟩ := exists_engine isOpen
  unfold anchorsOf
  rw [engine?_anchor, if_pos rfl, found]
  simp [anchor, found, Engine.anchor]

section Values

variable (opened : s ∈ ss)

namespace Value

theorem grants_anchored (kind : HandleKind) {r : Ref} (own : r.owner ∈ ss) :
    (anchored kind r).Grants ss hs := by
  refine fun w ready => SecuresAt.next (o := .anchor r) trivial trivial (.pure ?_)
  have onward := Op.onward (.anchor r) w
  intro h member
  obtain rfl : h = ⟨kind, r, (w.anchor r).1⟩ := by
    simpa [handles, handle?, Op.apply] using member
  refine ⟨Nat.lt_of_lt_of_le (ready.opened _ own) onward.next, fun isOpen => .inr ?_⟩
  have before : w.isOpen r.owner := onward.opened _ (ready.opened _ own) isOpen
  exact ⟨_, World.mem_anchor before, rfl, rfl⟩

include opened

/-- Data of a state that has been opened become values that last. -/
theorem grants_ofDatum {d : Datum} (own : Owned s d.refs) : (ofDatum d).Grants ss hs := by
  have anchors (kind : HandleKind) {r : Ref} (member : r ∈ d.refs) :
      (anchored kind r).Grants ss hs :=
    grants_anchored kind (own r member ▸ opened)
  cases d with
  | table | function | thread | userdata => exact anchors _ (by simp)
  | failure => exact .throw _
  | _ => exact .pure fun _ _ _ none => by cases none

theorem grants_ofData {data : List Datum} (own : OwnedData s data) :
    (ofData data).Grants ss hs :=
  .mapM fun d member => grants_ofDatum opened (own d member)

omit opened

theorem careful_toDatum (s : StateId) (v : Value) : (v.toDatum s).Careful ss hs :=
  .look fun _ => .check _

theorem careful_toData (s : StateId) (values : List Value) : (toData s values).Careful ss hs :=
  .carefulM fun v _ => careful_toDatum s v

end Value

theorem Handle.careful_checkOpen (h : Handle) : h.checkOpen.Careful ss hs :=
  .look fun _ => .check _

include opened

/-- An engine gives data of its state. -/
theorem secures_runTask (task : Task) :
    (runTask s task).Secures ss hs fun _ data => OwnedData s data := by
  have asked : (Action.ask (.script s task)).Secures ss hs fun _ outcome =>
      ∀ data, outcome = .ok data → OwnedData s data := by
    refine .ask (fun w ready => ?_) fun _ _ _ promise => promise.1
    exact ready.opened s opened
  refine .knowing asked fun outcome own => ?_
  cases outcome with
  | ok data => exact .pure fun _ _ => own data rfl
  | error e => exact .throw _

omit opened

/-- A new cell of a state is one of that state. -/
theorem owner_allocate (s : StateId) (cell : Script.Cell) :
    (Action.perform (.allocate s cell)).Secures ss hs fun _ r => r.owner = s :=
  .obtain trivial fun _ => rfl

include opened

theorem secures_allocate (cell : Script.Cell) :
    (Action.perform (.allocate s cell)).Secures ss hs fun _ r => r.owner ∈ ss :=
  (owner_allocate s cell).mono fun _ _ _ same => same ▸ opened

theorem grants_wrapNativeId (n : NativeId) : (wrapNativeId s n).Grants ss hs :=
  .operation <| .lends <| .knowing (secures_allocate opened _) fun _ own =>
    Value.grants_anchored .userdata own

theorem grants_wrapNative {native : Native} (plain : native.HandleFree)
    (own : handles native ⊆ hs) : (wrapNative s native).Grants ss hs :=
  .put (fun _ ready => ⟨plain, fun h member => ready.backing h (own member)⟩) trivial fun n =>
    grants_wrapNativeId opened n

theorem grants_wrapType {c : Class} (plain : c.HandleFree) (creator : Bool) :
    (wrapNative s (.typeObject c creator)).Grants ss hs :=
  grants_wrapNative opened plain (List.nil_subset _)

theorem grants_wrapObject (o : ObjectId) (ownership : Ownership) :
    (wrapObject s o ownership).Grants ss hs := by
  refine .operation <| .lends <| .of_view fun w ready => ?_
  split
  · rename_i r found
    obtain ⟨_, _, _, wraps⟩ := World.Wraps.of_wrapperOf? ready.sound found
    exact Value.grants_anchored .userdata (wraps.own ▸ opened) w ready
  · refine (Secures.next (o := .newWrapper o ownership) trivial fun n => ?_) w ready
    refine .gain (grants_wrapNativeId opened n) fun value => ?_
    have given : (pure value : Action Value).Grants ss (handles value ++ hs) :=
      .pure fun _ ready => ready.lasting.subset (List.subset_append_left ..)
    split
    · exact .next trivial fun _ => given
    · exact given

end Values

namespace TableOps

theorem careful_setContent (r : Ref) (content : Script.Table) :
    (setContent r content).Careful ss hs :=
  .look fun _ => .act trivial

theorem grants_newTable (opened : s ∈ ss) : (newTable s).Grants ss hs :=
  .operation <| .lends <| .knowing (secures_allocate opened _) fun _ own =>
    Value.grants_anchored .table own

variable {r : Ref} (opened : r.owner ∈ ss)
include opened

theorem grants_get (key : Value) : (get r key).Grants ss hs :=
  .operation <| .lends <| .after (key.careful_toDatum _) fun _ =>
    .knowing (secures_runTask opened _) fun _ own => Value.grants_ofDatum opened own.headD

theorem careful_set (key value : Value) : (set r key value).Careful ss hs :=
  .enclosed <| .after (key.careful_toDatum _) fun _ =>
    .after (value.careful_toDatum _) fun _ => (secures_runTask opened _).discard

theorem grants_entries {table : Value} (own : handles table ⊆ hs) :
    (entries table r).Grants ss hs := by
  refine .operation <| .lends <| .of_view fun w ready => ?_
  refine Secures.mapM (fun (k, v) member => ?_) w ready
  have owned := Script.Table.owned_iff.mp (ready.sound.isolated.tableAt_owned r) k v
    (List.mem_of_mem_filter member)
  refine .gain (Value.grants_ofDatum opened owned.1) fun key => ?_
  refine .gain (Value.grants_ofDatum opened owned.2) fun value => .pure fun _ ready => ?_
  refine ready.lasting.subset fun h member => ?_
  rcases List.mem_append.mp member with before | inValue
  · refine List.mem_append_right _ ?_
    rcases List.mem_append.mp before with inTable | inKey
    · exact List.mem_append_right _ (own inTable)
    · exact List.mem_append_left _ inKey
  · exact List.mem_append_left _ inValue

omit opened

theorem careful_shift (r : Ref) (start count : Int64) (fill : Value) :
    (shift r start count fill).Careful ss hs := by
  refine .enclosed <| .look fun content => ?_
  dsimp only
  split
  · exact .throw _
  · split
    · exact careful_setContent _ _
    · split
      · split
        · exact .throw _
        · exact .after (careful_setContent _ _) fun _ => .after (fill.careful_toDatum _) fun _ =>
            careful_setContent _ _
      · exact .done _

end TableOps

section Objects

theorem careful_releaseNative (n : NativeId) : (releaseNative n).Careful ss hs := by
  refine .next trivial fun native => ?_
  split
  · refine .look fun found => ?_
    split
    · exact .request fun _ _ => trivial
    · exact .done _
  · exact .done _

theorem Host.careful_put (o : ObjectId) (property : String) {value : HostValue}
    (own : value.handles ⊆ hs) : (Host.put o property value).Careful ss hs :=
  .look fun _ => .put (fun _ ready _ member => ready.backing _ (own member)) trivial fun _ =>
    .forM fun n _ => careful_releaseNative n

/-- The receivers of a signal are plain, and their states have been opened. -/
theorem World.Ready.receiver {w : World} (ready : w.Ready ss hs) {o : ObjectId} {signal : String}
    {c : Connection} (member : c ∈ w.connectionsOf o signal) :
    c.receiver.HandleFree ∧ ∀ h ∈ handles c.receiver, h.state < w.engines.next := by
  unfold World.connectionsOf at member
  cases found : w.object? o with
  | none => simp [found] at member
  | some object =>
    rw [found] at member
    have only := ready.anchored.held.objects o object found
    have there := only.connections c (List.mem_of_mem_filter member)
    exact ⟨there.1, fun h own => (there.2 h own).1⟩

theorem World.Ready.classOf {w : World} (ready : w.Ready ss hs) (o : ObjectId) :
    (w.classOf o).HandleFree := by
  unfold World.classOf
  cases found : w.object? o with
  | none => exact rfl
  | some object => exact (ready.anchored.held.objects o object found).cls

theorem careful_emitSignal (o : ObjectId) (signal : String) {args : List HostValue}
    (own : handles args ⊆ hs) : (emitSignal o signal args).Careful ss hs := by
  refine .of_view fun w ready => ?_
  -- What is let go of before its turn has a state that has been opened all the same.
  have opened : w.Ready ((w.connectionsOf o signal).flatMap (fun c =>
      (handles c.receiver).map Handle.state) ++ ss) hs := by
    refine ready.states fun s member => ?_
    obtain ⟨c, there, member⟩ := List.mem_flatMap.mp member
    obtain ⟨h, held, rfl⟩ := List.mem_map.mp member
    exact (ready.receiver there).2 h held
  refine Secures.after (.carefulM fun c member => ?_) (fun outcomes => ?_) w opened
  · refine (Secures.attempt (.lendsNothing (.request fun w' ready' => ?_) fun _ => rfl)).careful
    refine ⟨(ready.receiver member).1, fun h held => ?_, ready'.lasting.subset own⟩
    exact ready'.opened _ (List.mem_append_left _
      (List.mem_flatMap.mpr ⟨c, member, List.mem_map_of_mem held⟩))
  · split
    · exact .throw _
    · exact .done _

namespace Host

theorem careful_emit (o : ObjectId) (signal : String) {args : List HostValue}
    (own : handles args ⊆ hs) : (emit o signal args).Careful ss hs := by
  refine .look fun found => .after (.check _) fun member => ?_
  refine .look fun alive => .after (.check _) fun _ => ?_
  split
  · exact .throw _
  · exact careful_emitSignal _ _ own

theorem careful_connect (s : StateId) (o : ObjectId) (signal : String) {callable : Value}
    (own : handles callable ⊆ hs) : (connect s o signal callable).Careful ss hs := by
  refine .look fun found => .after (.check _) fun member => ?_
  split
  · exact .throw _
  · exact .look fun alive => .after (.check _) fun _ =>
      .perform (fun _ ready => ⟨trivial, fun _ there => ready.backing _ (own there)⟩) trivial

end Host

/-- There are no handles in a slot of a plain class. -/
theorem Class.HandleFree.slot {c : Class} (plain : c.HandleFree) {slot : String} {m : Member}
    (found : c.findSlot slot = .ok m) : m.handles = [] := by
  unfold Class.findSlot at found
  split at found
  · rename_i there
    cases found
    unfold Class.slot? at there
    cases asSlot : c.member? slot (some .slot) with
    | some own =>
      rw [asSlot] at there
      cases there
      exact plain.member (List.mem_of_find?_eq_some asSlot)
    | none =>
      rw [asSlot] at there
      exact plain.member (List.mem_of_find?_eq_some there)
  · cases found

namespace Host

theorem careful_connectSlot (o : ObjectId) (signal : String) (target : ObjectId) (slot : String) :
    (connectSlot o signal target slot).Careful ss hs := by
  refine .look fun found => .after (.check _) fun member => .of_view fun w ready => ?_
  have plain := ready.classOf target
  refine Secures.knowing (.ofExcept fun m found _ _ => plain.slot found) (fun m nothing => ?_) w ready
  split
  · exact .throw _
  · split
    · exact .throw _
    · rename_i body same
      refine .look fun alive => .after (.check _) fun _ => .look fun alive => .after (.check _)
        fun _ => .perform (fun _ _ => ?_) trivial
      exact ⟨Member.handles_body nothing same, List.forall_mem_nil _⟩

theorem careful_disconnect (o : ObjectId) (signal : String) (callable : Option Value) :
    (disconnect o signal callable).Careful ss hs :=
  .look fun _ => .after (.check _) fun _ => .act trivial

theorem careful_disconnectSlot (o : ObjectId) (signal : String) (target : ObjectId) (slot : String) :
    (disconnectSlot o signal target slot).Careful ss hs :=
  .look fun _ => .after (.check _) fun _ => .look fun _ => .after (.check _) fun _ => .act trivial

theorem careful_connectByName (target : ObjectId) : (connectByName target).Careful ss hs := by
  refine .look fun alive => .after (.check _) fun _ => .look fun candidates => .look fun slots => ?_
  refine .after (.carefulM fun slot _ => .look fun found => ?_) fun made => .done _
  split
  · exact .after (careful_connectSlot _ _ _ _).discard fun _ => .done _
  · exact .done _

/-- What an object has stored is anchored. -/
theorem backing_stored {w : World} (ready : w.Ready ss hs) (o : ObjectId) (property : String) :
    w.Backing ((stored w o property).getD .void).handles := by
  unfold stored
  cases found : w.object? o with
  | none => exact List.forall_mem_nil _
  | some object =>
    cases there : object.values.find? (·.1 == property) with
    | none => simp [there, World.Backing, HostValue.handles]
    | some entry =>
      simp only [Option.bind_some, there, Option.map_some, Option.getD_some]
      exact (ready.anchored.held.objects o object found).values entry (List.mem_of_find?_eq_some there)

end Host

namespace HostValue

theorem handlesAll_eq (items : List HostValue) : handlesAll items = ScriptBridge.handles items := by
  induction items with
  | nil => rfl
  | cons item rest ih => rw [handlesAll, ih]; rfl

@[simp] theorem handles_list (items : List HostValue) :
    ScriptBridge.handles (list items) = ScriptBridge.handles items := handlesAll_eq items

@[simp] theorem handles_variant (v : Value) :
    ScriptBridge.handles (variant v) = ScriptBridge.handles v := by
  cases v <;> rfl

end HostValue

/-- What a member gives is anchored as long as it is held. -/
theorem Behaviour.lends_run (o : ObjectId) (signature : String) {b : Behaviour}
    (plain : b.handles = []) {args : List HostValue} (own : ScriptBridge.handles args ⊆ hs) :
    (b.run o signature args).Lends ss hs := by
  have given (n : Nat) : ScriptBridge.handles (args.getD n .void) ⊆ hs :=
    List.Subset.trans (handles_getD rfl args n) own
  have void : Lends ss hs (pure HostValue.void) := .pure fun _ _ => List.forall_mem_nil _
  refine .next trivial fun _ => ?_
  cases b with
  | const => exact .pure fun _ _ => World.Backing.of_nil plain
  | arg n =>
    exact .lends (.pure fun _ ready => ready.lasting.subset (given n))
  | list =>
    rw [← HostValue.handles_list] at own
    exact .lends (.pure fun _ ready => ready.lasting.subset own)
  | get property => exact .of_view fun w ready => .pure (Host.backing_stored ready o property)
  | put => exact .after (Host.careful_put _ _ (given 0)) fun _ => void
  | putEmit =>
    refine .look fun old => .after (Host.careful_put _ _ (given 0)) fun _ => .look fun differ => ?_
    have alone : ScriptBridge.handles [args.getD 0 .void] ⊆ hs := by
      rw [handles_singleton]
      exact given 0
    dsimp only
    split
    · exact .after (Host.careful_emit _ _ alone) fun _ => void
    · exact void
  | emit => exact .after (Host.careful_emit _ _ own) fun _ => void
  | log =>
    exact .look fun _ => .after (.check _) fun _ => .look fun _ => .next trivial fun _ => void
  | destroy => exact .after (.request fun _ _ => trivial) fun _ => void
  | objectName | parent | findChild => exact .look fun _ => .pure fun _ _ => List.forall_mem_nil _
  | rename => exact .next trivial fun _ => void
  | setParent => exact .next trivial fun _ => .after (.check _) fun _ => void
  | fail => exact .throw _
  | _ => exact .pure fun _ _ => List.forall_mem_nil _

theorem Creation.careful_run {c : Class} (plain : c.HandleFree) (creation : Creation)
    {args : List HostValue} (own : handles args ⊆ hs) : (creation.run c args).Careful ss hs := by
  cases creation with
  | fail => exact .throw _
  | assign targets =>
    refine .put (fun _ _ => plain) trivial fun o =>
      .after (.forM fun (target, value) member => ?_) fun _ => .done _
    match target with
    | none => exact .done _
    | some .objectName => exact .act trivial
    | some (.property name) =>
      refine .perform (fun _ ready h there => ready.backing h (own ?_)) trivial
      exact mem_handles_list.mpr ⟨value, (List.of_mem_zip member).2, there⟩

theorem careful_destroyObject (o : ObjectId) : (destroyObject o).Careful ss hs := by
  refine .look fun isDestroyed => ?_
  split
  · exact .done _
  · refine .look fun declares => ?_
    extract_lets rest
    have going (u : PUnit) : (rest u).Careful ss hs :=
      .next trivial fun children => .forM fun child _ => .request fun _ _ => trivial
    split
    · refine .after (Secures.discard (.attempt (.lendsNothing ?_ fun _ => rfl))) going
      exact careful_emitSignal _ _ (List.nil_subset _)
    · exact going ⟨⟩

end Objects

section Marshalling

theorem HostType.grants_items {r : Ref} (opened : r.owner ∈ ss) :
    (HostType.items r).Grants ss hs := by
  have measured : Careful ss hs (.operation r.owner (.view fun w => (w.tableAt r).length)) :=
    (Secures.operation (.lendsNothing (.view fun _ _ => trivial) fun _ => rfl)).careful
  refine .after measured fun length => .mapM fun k _ => ?_
  refine .gain (TableOps.grants_get opened _) fun v => .pure fun _ ready => ?_
  exact ready.lasting.subset (HostValue.handles_variant v ▸ List.subset_append_left ..)

theorem Value.mem_of_ofKind? {v : Value} {kind : HandleKind} {h : Handle}
    (found : v.ofKind? kind = some h) : h ∈ handles v := by
  unfold ofKind? at found
  split at found
  · split at found
    · cases found
      exact List.mem_singleton_self _
    · cases found
  · cases found

theorem HostType.grants_fromValue (t : HostType) {v : Value} (own : handles v ⊆ hs) :
    (t.fromValue v).Grants ss hs := by
  have plain {x : HostValue} (none : handles x = []) : Grants ss hs (pure x) :=
    .pure fun _ ready => ready.lasting.subset (none ▸ List.nil_subset _)
  cases t with
  | void => exact plain rfl
  | variant =>
    exact .pure fun _ ready => ready.lasting.subset (HostValue.handles_variant v ▸ own)
  | bool =>
    simp only [HostType.fromValue]
    split <;> first | exact plain rfl | exact .throw _
  | int | double | string => exact .after (.check _) fun _ => plain rfl
  | object | native =>
    simp only [HostType.fromValue]
    split
    · exact plain rfl
    · refine .look fun found => ?_
      split
      · exact plain rfl
      · exact .throw _
  | list =>
    simp only [HostType.fromValue]
    split
    · rename_i h found
      refine .after (Handle.careful_checkOpen _) fun _ => .inStates own ?_
      have opened : h.state ∈ (handles v).map Handle.state ++ ss :=
        List.mem_append_left _ (List.mem_map_of_mem (Value.mem_of_ofKind? found))
      refine .gain (HostType.grants_items opened) fun items => .pure fun _ ready => ?_
      exact ready.lasting.subset (HostValue.handles_list items ▸ List.subset_append_left ..)
    · exact .throw _

theorem grants_marshalArgs (params : List HostType) {args : List Value} (own : handles args ⊆ hs) :
    (marshalArgs params args).Grants ss hs :=
  .mapM fun (t, v) member => t.grants_fromValue fun _ there =>
    own (mem_handles_list.mpr ⟨v, (List.of_mem_zip member).2, there⟩)

namespace HostValue

mutual

/-- What a host value becomes lasts, unless it is a variant, which becomes what it holds. -/
theorem secures_toValue {ss : List StateId} {hs : List Handle} (opened : s ∈ ss) : (v : HostValue) →
    (v.toValue s).Secures ss hs fun w x => v = .variant x ∨ w.Lasting (ScriptBridge.handles x)
  | .void | .bool _ | .int _ | .double _ | .text _ | .object none | .native none => by
    simp only [toValue]
    exact .pure fun _ _ => .inr (List.forall_mem_nil _)
  | .variant _ => by
    simp only [toValue]
    exact .pure fun _ _ => .inl rfl
  | .object (some o) => by
    simp only [toValue]
    exact (grants_wrapObject opened o _).mono fun _ _ _ => .inr
  | .native (some n) => by
    simp only [toValue]
    exact (grants_wrapNativeId opened n).mono fun _ _ _ => .inr
  | .list items => by
    simp only [toValue]
    refine .gain (TableOps.grants_newTable opened) fun table => ?_
    have given : Secures ss (ScriptBridge.handles table ++ hs) (pure table) fun w x =>
        HostValue.list items = .variant x ∨ w.Lasting (ScriptBridge.handles x) :=
      .pure fun _ ready => .inr (ready.lasting.subset (List.subset_append_left ..))
    split
    · rename_i h same
      have own : [h] ⊆ ScriptBridge.handles table ++ hs := by simp [Holding.handles, same]
      have filled : Careful ss (ScriptBridge.handles table ++ hs) (fillTable s h.target 1 items) :=
        .inStates own (careful_fillTable (List.mem_cons_of_mem _ opened) List.mem_cons_self 1 items)
      exact .after filled fun _ => given
    · exact given

theorem careful_fillTable {ss : List StateId} {hs : List Handle} (opened : s ∈ ss) {r : Ref}
    (own : r.owner ∈ ss) (position : Nat) :
    (items : List HostValue) → (fillTable s r position items).Careful ss hs
  | [] => by
    simp only [fillTable]
    exact .done _
  | item :: items => by
    simp only [fillTable]
    exact .after (secures_toValue opened item) fun _ => .after (TableOps.careful_set own _ _)
      fun _ => careful_fillTable opened own (position + 1) items

end

variable (opened : s ∈ ss)
include opened

theorem grants_toValue {v : HostValue} (own : ScriptBridge.handles v ⊆ hs) :
    (v.toValue s).Grants ss hs := by
  refine (secures_toValue opened v).mono fun w x ready known => ?_
  rcases known with rfl | lasting
  · exact ready.lasting.subset (handles_variant x ▸ own)
  · exact lasting

/-- A host value that is anchored becomes a value that is anchored. -/
theorem lends_toValue {w : World} (ready : w.Ready ss hs) {v : HostValue}
    (backing : w.Backing (ScriptBridge.handles v)) :
    (v.toValue s).SecuresAt w fun w x => w.Backing (ScriptBridge.handles x) := by
  by_cases variant : ∃ x, v = .variant x
  · obtain ⟨x, rfl⟩ := variant
    simp only [toValue]
    exact .pure (handles_variant x ▸ backing)
  · refine (secures_toValue opened v w ready).mono ready fun w x ready known => ?_
    exact (known.resolve_left fun same => variant ⟨x, same⟩).backing ready.anchored

end HostValue

end Marshalling

end

end ScriptBridge
