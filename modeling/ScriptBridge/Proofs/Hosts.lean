import ScriptBridge.Native.Operations
import ScriptBridge.Proofs.Marshal

/-!
What host objects and native objects do keeps engines apart, and the members of an object start only
while it is alive: whoever starts one has looked just before.
-/

namespace ScriptBridge

open ScriptBridge.Action (Gives Meets Respects Safe)

theorem World.ensureAlive_iff {w : World} {o : ObjectId} :
    w.ensureAlive o = .ok () ↔ w.isDestroyed o = false := by
  unfold ensureAlive
  cases w.isDestroyed o <;> simp

/-- A program goes on after an object has been found alive. -/
theorem Action.Meets.ensureAlive {o : ObjectId} {f : Unit → Action α}
    {Q : α → Prop} {w : World} (sound : w.Sound)
    (rest : w.isDestroyed o = false → (f ()).Meets (Gives Q) w) :
    (Action.view (·.ensureAlive o) >>= fun checked => Action.ofExcept checked >>= f).Meets
      (Gives Q) w := by
  refine view_iff.mpr (ofExcept_iff.mpr ⟨fun _ alive => ?_, fun _ _ => ?_⟩)
  · exact rest (World.ensureAlive_iff.mp alive)
  · exact Action.gives_error.mpr sound

theorem safe_emitSignal (o : ObjectId) (signal : String) (args : List HostValue) :
    (emitSignal o signal args).Safe := by
  refine .of_view fun w _ => .bind (P := fun _ => True) (.safe (.mapM (Q := fun _ => True) ?_)) ?_
  · intro c _
    have delivered : Safe (.ask (.deliver c o args)) := .ask trivial fun _ _ _ _ => trivial
    exact (Respects.attempt delivered).safe
  · intro outcomes _
    split
    · exact .throw _
    · exact .pure trivial

namespace Host

theorem safe_emit (o : ObjectId) (signal : String) (args : List HostValue) :
    (emit o signal args).Safe := by
  refine .of_view fun w _ => .bind (P := fun _ => True) (.ofExcept fun _ _ => trivial) ?_
  refine fun member _ => .of_view fun w _ => .bind (P := fun _ => True)
    (.ofExcept fun _ _ => trivial) fun _ _ => ?_
  split
  · exact .throw _
  · exact safe_emitSignal o _ _

theorem safe_connect (s : StateId) (o : ObjectId) (signal : String) (callable : Value) :
    (connect s o signal callable).Safe := by
  refine .of_view fun w _ => .bind (P := fun _ => True) (.ofExcept fun _ _ => trivial) ?_
  intro member _
  split
  · exact .throw _
  · intro w sound
    refine .ensureAlive sound fun alive => ?_
    exact ⟨alive, Op.Permitted.sound (o := .connect o _ _) alive sound, fun _ _ => trivial⟩

theorem safe_connectSlot (o : ObjectId) (signal : String) (target : ObjectId) (slot : String) :
    (connectSlot o signal target slot).Safe := by
  refine .of_view fun w _ => .bind (P := fun _ => True) (.ofExcept fun _ _ => trivial) ?_
  refine fun member _ => .of_view fun w _ => .bind (P := fun _ => True)
    (.ofExcept fun _ _ => trivial) fun slotMember _ => ?_
  split
  · exact .throw _
  · split
    · exact .throw _
    · intro w sound
      refine .ensureAlive sound fun alive => ?_
      refine .ensureAlive sound fun _ => ?_
      exact ⟨alive, Op.Permitted.sound (o := .connect o _ _) alive sound, fun _ _ => trivial⟩

theorem safe_disconnect (o : ObjectId) (signal : String) (callable : Option Value) :
    (disconnect o signal callable).Safe :=
  .of_view fun _ _ => .bind (P := fun _ => True) (.ofExcept fun _ _ => trivial) fun _ _ =>
    .act fun _ _ => trivial

theorem safe_disconnectSlot (o : ObjectId) (signal : String) (target : ObjectId) (slot : String) :
    (disconnectSlot o signal target slot).Safe :=
  .of_view fun _ _ => .bind (P := fun _ => True) (.ofExcept fun _ _ => trivial) fun _ _ =>
    .of_view fun _ _ => .bind (P := fun _ => True) (.ofExcept fun _ _ => trivial) fun _ _ =>
      .act fun _ _ => trivial

theorem safe_connectByName (target : ObjectId) : (connectByName target).Safe := by
  refine .of_view fun w _ => .bind (P := fun _ => True) (.ofExcept fun _ _ => trivial) ?_
  refine fun _ _ => .of_view fun w _ => .of_view fun w' _ => ?_
  refine .bind (P := fun _ => True) (.safe (.mapM (Q := fun _ => True) fun slot _ => ?_)) fun _ _ =>
    .pure trivial
  refine .of_view fun w _ => ?_
  split
  · exact .bind (.discard (safe_connectSlot _ _ _ _)) fun _ _ => .pure trivial
  · exact .pure trivial

end Host

theorem safe_releaseNative (n : NativeId) : (releaseNative n).Safe := by
  refine .bind (P := fun _ => True) (.act fun _ _ => trivial) fun native _ => ?_
  split
  · refine .of_view fun w _ => ?_
    split
    · exact .ask trivial fun _ _ _ _ => trivial
    · exact .pure trivial
  · exact .pure trivial

namespace Host

theorem safe_put (o : ObjectId) (property : String) (value : HostValue) :
    (put o property value).Safe :=
  .of_view fun _ _ => .bind (P := fun _ => True) (.act fun _ _ => trivial) fun _ _ =>
    .forM fun n _ => safe_releaseNative n

end Host

/-- What a member of an object that is alive does. -/
theorem meets_run {o : ObjectId} {w : World} (sound : w.Sound) (alive : w.isDestroyed o = false)
    (signature : String) (b : Behaviour) (args : List HostValue) :
    (b.run o signature args).Meets (Gives fun _ => True) w := by
  refine Meets.perform_iff.mpr ⟨alive, ?_⟩
  suffices body : Safe _ from body w sound
  cases b with
  | nothing | const | arg | list | multiply | repeatText | self => exact .pure trivial
  | get | objectName | parent | findChild => exact .of_view fun _ _ => .pure trivial
  | put property => exact .bind (Host.safe_put o _ _) fun _ _ => .pure trivial
  | putEmit property signal =>
    refine .of_view fun w _ => .bind (Host.safe_put o _ _) fun _ _ => .of_view fun w' _ => ?_
    split
    · exact .bind (Host.safe_emit o _ _) fun _ _ => .pure trivial
    · exact .pure trivial
  | emit signal => exact .bind (Host.safe_emit o _ _) fun _ _ => .pure trivial
  | log =>
    refine .of_view fun w _ => .bind (P := fun _ => True) (.ofExcept fun _ _ => trivial) ?_
    exact fun _ _ => .of_view fun _ _ => .bind (P := fun _ => True) (.act fun _ _ => trivial)
      fun _ _ => .pure trivial
  | destroy =>
    exact .bind (P := fun _ => True) (.ask trivial fun _ _ _ _ => trivial) fun _ _ => .pure trivial
  | fail e => exact .throw e
  | rename =>
    exact .bind (P := fun _ => True) (.act fun _ _ => trivial) fun _ _ => .pure trivial
  | setParent =>
    refine .bind (P := fun _ => True) (.act fun _ _ => trivial) fun _ _ => ?_
    exact .bind (P := fun _ => True) (.ofExcept fun _ _ => trivial) fun _ _ => .pure trivial

theorem safe_creation (c : Class) (creation : Creation) (args : List HostValue) :
    (creation.run c args).Safe := by
  cases creation with
  | fail e => exact .throw e
  | assign targets =>
    refine .bind (P := fun _ => True) (.act fun _ _ => trivial) fun o _ => ?_
    refine .bind (P := fun _ => True) (.forM ?_) fun _ _ => .pure trivial
    rintro ⟨target, value⟩ _
    dsimp only
    split
    · exact .pure trivial
    · exact .act fun _ _ => trivial
    · exact .act fun _ _ => trivial

theorem safe_destroyObject (o : ObjectId) : (destroyObject o).Safe := by
  refine .of_view fun w _ => ?_
  split
  · exact .pure trivial
  · refine .of_view fun w' _ => ?_
    extract_lets retiring
    have going : (retiring ()).Safe :=
      .bind (P := fun _ => True) (.act fun _ _ => trivial) fun children _ =>
        .forM fun child _ => .ask trivial fun _ _ _ _ => trivial
    split
    · exact .bind (.discard (Respects.attempt (safe_emitSignal o _ _))) fun _ _ => going
    · exact going

namespace Class

theorem safe_instantiate (c : Class) (creator : Bool) (args : List Value) :
    (c.instantiate creator args).Safe := by
  unfold instantiate
  split
  · exact .act fun _ _ => trivial
  · refine .of_view fun w _ => ?_
    split
    · exact .bind (safe_marshalArgs _ _) fun _ _ => safe_creation c _ _
    · exact .throw _

theorem safe_construct (s : StateId) (c : Class) (creator : Bool) (args : List Value)
    (ownership : Ownership) : (c.construct s creator args ownership).Safe :=
  .bind (c.safe_instantiate creator args) fun o _ => safe_wrapObject s o ownership

end Class

namespace Native

/-- A property is read, or methods are bound, of an object that is alive. -/
theorem safe_readMember (s : StateId) (o : ObjectId) (key : Value) : (readMember s o key).Safe := by
  refine .of_view fun w₀ _ => .bind (P := fun _ => True) (.ofExcept fun _ _ => trivial) ?_
  intro name _ w sound
  refine .ensureAlive sound fun alive => ?_
  split
  · rename_i p found
    refine Meets.bind_iff.mpr ((meets_run sound alive _ p.getter []).mono ?_)
    rintro (f | v) w' ⟨sound', -⟩
    · exact Action.gives_error.mpr sound'
    · exact HostValue.safe_toValue s v w' sound'
  · split
    · exact Respects.throw _ w sound
    · exact safe_wrapNative s (by simp [IsWrapper]) w sound

/-- A property is assigned on an object that was alive before the value was taken out of its state,
which leaves it alive. -/
theorem safe_writeMember (o : ObjectId) (key value : Value) : (writeMember o key value).Safe := by
  refine .of_view fun w₀ _ => .bind (P := fun _ => True) (.ofExcept fun _ _ => trivial) ?_
  intro name _ w sound
  refine .ensureAlive sound fun alive => ?_
  split
  · rename_i p found
    split
    · exact Respects.throw _ w sound
    · rename_i setter _
      refine Meets.bind_iff.mpr ((p.type.spares_fromValue w value w sound (.refl w)).mono ?_)
      rintro (f | v) w' ⟨sound', spared⟩
      · exact Action.gives_error.mpr sound'
      · have alive' : w'.isDestroyed o = false := by
          rw [(spared v rfl).2.isDestroyed]
          exact alive
        refine Meets.bind_iff.mpr (Meets.bind_iff.mpr ((meets_run sound' alive' _ _ _).mono ?_))
        rintro (f | result) w₂ ⟨sound₂, -⟩
        · exact Action.gives_error.mpr sound₂
        · exact Respects.pure trivial w₂ sound₂
  · split
    · exact Respects.pure trivial w sound
    · exact Respects.throw _ w sound

/-- A method is called on an object that was alive before the arguments were taken out of their
state, which leaves it alive. -/
theorem safe_callMember (s : StateId) (o : ObjectId) (name : String) (args : List Value) :
    (callMember s o name args).Safe := by
  refine .of_view fun w₀ _ => ?_
  intro w sound
  refine .ensureAlive sound fun alive => Meets.view_iff.mpr (Meets.view_iff.mpr ?_)
  split
  · exact Respects.throw _ w sound
  · rename_i m _
    refine Meets.bind_iff.mpr ((spares_marshalArgs w m.params _ w sound (.refl w)).mono ?_)
    rintro (f | hostArgs) w' ⟨sound', spared⟩
    · exact Action.gives_error.mpr sound'
    · have alive' : w'.isDestroyed o = false := by
        rw [(spared hostArgs rfl).2.isDestroyed]
        exact alive
      dsimp only [Action.Continues]
      split
      · exact Respects.bind (safe_emitSignal o _ _) (fun _ _ => .pure trivial) w' sound'
      · split
        · exact Respects.throw _ w' sound'
        · refine Meets.bind_iff.mpr ((meets_run sound' alive' _ _ _).mono ?_)
          rintro (f | result) w₂ ⟨sound₂, -⟩
          · exact Action.gives_error.mpr sound₂
          · dsimp only [Action.Continues]
            split
            · exact Respects.pure trivial w₂ sound₂
            · exact Respects.bind (HostValue.safe_toValue s result) (fun _ _ => .pure trivial) w₂
                sound₂

theorem safe_index (s : StateId) (native : Native) (key : Value) : (native.index s key).Safe := by
  unfold index
  split
  · exact safe_readMember s _ key
  · exact .of_view fun _ _ => .ofExcept fun _ _ => trivial
  · split
    · refine .of_view fun w _ => ?_
      split
      · exact safe_wrapNative s (by simp [IsWrapper])
      · exact .throw _
    · exact .throw _
  · split <;> first | exact .pure trivial | exact .throw _
  · split <;> first | exact .pure trivial | exact .throw _
  · exact .bind (P := fun _ => True) (.ofExcept fun _ _ => trivial) fun _ _ => .pure trivial
  all_goals exact .throw _

theorem safe_newIndex (n : NativeId) (native : Native) (key value : Value) :
    (native.newIndex n key value).Safe := by
  unfold newIndex
  split
  · exact safe_writeMember _ key value
  · exact .throw _
  · split
    · refine .bind (P := fun _ => True) (.ofExcept fun _ _ => trivial) fun _ _ => ?_
      exact .bind (P := fun _ => True) (.act fun _ _ => trivial) fun _ _ => .pure trivial
    · exact .pure trivial
  · exact .pure trivial

theorem safe_assign (n : NativeId) (native : Native) (key value : Value) :
    (native.assign n key value).Safe := by
  refine .bind (safe_newIndex n native key value) fun taken _ => ?_
  split
  · exact .pure trivial
  · exact .of_view fun _ _ => .throw _

theorem safe_call (s : StateId) (native : Native) (args : List Value) :
    (native.call s args).Safe := by
  unfold call
  split
  · exact safe_callMember s _ _ args
  · exact .bind (Class.safe_construct s _ _ args .script) fun _ _ => .pure trivial
  · exact .pure trivial
  · exact .of_view fun _ _ => .throw _

theorem safe_length (native : Native) : native.length.Safe := by
  unfold length
  split
  · exact .view fun _ _ => trivial
  · exact .pure trivial
  · exact .pure trivial
  · exact .of_view fun _ _ => .throw _

theorem safe_measure (native : Native) : native.measure.Safe := by
  unfold measure
  split
  · exact safe_length native
  · exact .of_view fun _ _ => .throw _

theorem safe_vec2Operate (s : StateId) (op : Operator) (left right : Option (Double × Double)) :
    (vec2Operate s op left right).Safe := by
  unfold vec2Operate
  split
  · exact safe_wrapNative s (by simp [IsWrapper])
  · exact safe_wrapNative s (by simp [IsWrapper])
  · exact .pure trivial
  · exact .pure trivial
  · exact .pure trivial
  · exact .throw _

theorem safe_operate (s : StateId) (native : Native) (op : Operator) (left right : Value) :
    (native.operate s op left right).Safe := by
  unfold operate
  split
  · split
    · exact .of_view fun _ _ => .pure trivial
    · exact .of_view fun _ _ => .throw _
  · exact .of_view fun _ _ => safe_vec2Operate s op _ _
  · exact .pure trivial
  · exact .of_view fun _ _ => .throw _

theorem safe_dispatch (s : StateId) (op : Operator) (left right : Value) :
    (dispatch s op left right).Safe := by
  refine .of_view fun w _ => ?_
  split
  · exact .throw _
  · split
    · exact safe_operate s _ op left right
    · exact .of_view fun _ _ => .throw _

end Native

end ScriptBridge
