import ScriptBridge.Script.Frame

/-!
The references in the data of scripts: which places of a heap a cell leads to.
-/

namespace ScriptBridge.Script

def Datum.refs (d : Datum) : List Ref := d.ref?.toList

def refsOf (data : List Datum) : List Ref := data.flatMap Datum.refs

def Table.refs (t : Table) : List Ref := t.entries.flatMap fun (k, v) => k.refs ++ v.refs

def Env.refs (env : Env) : List Ref := env.vars.map (·.2) ++ refsOf env.varargs

def Place.refs : Place → List Ref
  | .var r => [r]
  | .global _ => []
  | .field object key _ => object.refs ++ key.refs

namespace Kont

def refs : Kont → List Ref
  | .gather done _ env _ => refsOf done ++ env.refs
  | .choose _ _ env => env.refs
  | .methodFound object _ _ env _ _ => object.refs ++ env.refs
  | .stores pending env _ => pending.flatMap (fun (p, v) => p.refs ++ v.refs) ++ env.refs
  | .block _ env | .loop _ env | .integers _ _ _ _ _ env | .floats _ _ _ _ _ env => env.refs
  | .iterations _ f state control _ env _ => f.refs ++ state.refs ++ control.refs ++ env.refs
  | .iterator _ f state _ env _ => f.refs ++ state.refs ++ env.refs
  | .handledCall handler _ | .handling handler _ _ => handler.refs
  | .printing _ rest => refsOf rest
  | .single | .truth _ | .activation .. | .builtin .. | .protectedCall _ | .text _ | .triple _
  | .ipairsValue _ | .resumed .. | .report _ => []

end Kont

def Progress.refs : Progress → List Ref
  | .fresh body => body.refs
  | .suspended konts => konts.flatMap Kont.refs
  | .active => []
  | .ended failure => (failure.map Datum.refs).getD []

def Builtin.refs : Builtin → List Ref
  | .coroutineWrapped thread => [thread]
  | _ => []

namespace Cell

/-- The places that a cell refers to. -/
def refs : Cell → List Ref
  | .variable value => value.refs
  | .table content metatable => content.refs ++ metatable.toList
  | .closure c => c.vars.map (·.2)
  | .builtin b => b.refs
  | .thread t => t.progress.refs
  | .native _ | .file => []

/-- Whether two cells are variables, tables or coroutines alike: only those ever change. -/
def isLike : Cell → Cell → Bool
  | .variable _, .variable _ | .table .., .table .. | .thread _, .thread _ => true
  | _, _ => false

end Cell

end ScriptBridge.Script
