import ScriptBridge.World.Basic

/-!
Sample native objects by the names of their types.
-/

namespace ScriptBridge.Native

def vec2OfArgs (args : List Value) : Except BridgeError Native := do
  let x ← (args.getD 0 .nil).toNumber
  let y ← (args.getD 1 .nil).toNumber
  pure (.vec2 x y)

/-- A native object of a type that is given by its name. -/
def sample (typeName : String) (args : List Value) : Except BridgeError Native :=
  match typeName with
  | "Vec2" => vec2OfArgs args
  | "Counter" => .ok (.counter 0)
  | "Plain" => .ok .plain
  | "Impostor" => .ok .impostor
  | "Liar" => .ok .liar
  | "Bag" => .ok (.bag args)
  | other => .error (.nameNotFound s!"no native `{other}`")

end ScriptBridge.Native
