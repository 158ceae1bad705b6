import ScriptBridge.Script.Datum

/-!
The functions that are not written in the script language: the standard library, the functions of
the host library and of the sample library, and the operations of native objects.
-/

namespace ScriptBridge

/-- An operator that native objects may implement. -/
inductive Operator where
  | add
  | sub
  | mul
  | div
  | mod
  | pow
  | idiv
  | unm
  | concat
  | eq
  | lt
  | le
deriving DecidableEq, Repr

/-- A group of operations that a native object declares to support. -/
inductive Ability where
  | compare
  | concat
  | arithmetic
  | call
  | length
deriving DecidableEq, Repr

namespace Operator

def name : Operator → String
  | .add => "add"
  | .sub => "sub"
  | .mul => "mul"
  | .div => "div"
  | .mod => "mod"
  | .pow => "pow"
  | .idiv => "idiv"
  | .unm => "unm"
  | .concat => "concat"
  | .eq => "eq"
  | .lt => "lt"
  | .le => "le"

def ability : Operator → Ability
  | .eq | .lt | .le => .compare
  | .concat => .concat
  | _ => .arithmetic

end Operator

/-- A function of the host's side that scripts can call: the host library, and samples that stand for
any others. -/
inductive HostFunction where
  /-- The host library. -/
  | newObject
  | connect
  | connectSlotsByName
  | disconnect
  | metaType
  | typeOf
  | propertyNames
  /-- The sample library. -/
  | fail
  | failTagged
  | vec2
  | native
  | add
  | echo
  | count
  | frames
  | call
  | exec
  | get
  | log
deriving DecidableEq, Repr

namespace HostFunction

/-- The functions of the sample library by their names. -/
def samples : List (String × HostFunction) :=
  [("fail", .fail), ("tagged", .failTagged), ("vec2", .vec2), ("native", .native), ("add", .add),
   ("echo", .echo), ("count", .count), ("frames", .frames), ("call", .call), ("exec", .exec),
   ("get", .get), ("log", .log)]

end HostFunction

/-- What scripts can do with a native object. -/
inductive NativeEvent where
  | index
  | newIndex
  | call
  | length
  | toText
  | operate (op : Operator)
deriving DecidableEq, Repr

namespace Script

inductive Builtin where
  | print
  | type
  | tostring
  | tonumber
  | rawequal
  | rawlen
  | rawget
  | rawset
  | next
  | pairs
  | ipairs
  | ipairsStep
  | select
  | assert
  | error
  | pcall
  | xpcall
  | setmetatable
  | getmetatable
  | collectgarbage
  | coroutineCreate
  | coroutineResume
  | coroutineYield
  | coroutineWrap
  /-- Resumes one coroutine and hands its failures on. -/
  | coroutineWrapped (thread : Ref)
  | coroutineStatus
  | coroutineIsYieldable
  | coroutineRunning
  | coroutineClose
  | stringSub
  | stringRep
  | stringMatch
  | mathFloor
  /-- A function of the host's side. -/
  | host (f : HostFunction)
  /-- An operation of native objects. -/
  | member (event : NativeEvent)
  /-- A function of the standard library that this engine does not have. -/
  | missing (name : String)
deriving DecidableEq

end Script

end ScriptBridge
