import ScriptBridge.Value.Conversion

/-!
Native objects as userdata. While the wrapper of a host object is alive in a state, wrapping the
object again gives the same userdata. Engines are taken not to collect while they make a userdata, so
no receiver comes in between the look-up of a wrapper and its being remembered.
-/

namespace ScriptBridge

/-- A new userdata for a native object that is there already. -/
def wrapNativeId (s : StateId) (n : NativeId) : Action Value :=
  .operation s do Value.anchored .userdata (← .perform (.allocate s (.native n)))

/-- A userdata for a new native object. -/
def wrapNative (s : StateId) (native : Native) : Action Value := do
  wrapNativeId s (← .perform (.newNative native))

namespace World

/-- The userdata that wraps an object in a state. -/
def wrapperOf? (w : World) (s : StateId) (o : ObjectId) : Option Ref := do
  let e ← w.engine? s
  let (_, r) ← e.wrappers.find? (·.1 == o)
  match w.cell? r with
  | some (.native n) =>
    match w.native? n with
    | some (.wrapper o' _ _) => if o' = o then some r else none
    | _ => none
  | _ => none

end World

/-- A userdata for a host object. Who wraps it first decides on its ownership. -/
def wrapObject (s : StateId) (o : ObjectId) (ownership : Ownership) : Action Value :=
  .operation s do
    match ← .view (·.wrapperOf? s o) with
    | some r => Value.anchored .userdata r
    | none =>
      let n ← .perform (.newWrapper o ownership)
      let value ← wrapNativeId s n
      match value.handle? with
      | some h => do
        .perform (.cacheWrapper s o h.target)
        pure value
      | none => pure value

end ScriptBridge
