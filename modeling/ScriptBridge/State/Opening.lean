import ScriptBridge.Program
import ScriptBridge.Script.Library

/-!
Opening a state: its engine gets the configured libraries and the helpers of the bridge, then the
registered functions, then the host library. A state that cannot be equipped is closed again.
-/

namespace ScriptBridge.State

open Script (Content Datum)

/-- Three functions that read a member, assign one and call a value. -/
def helperSource : String :=
  "\nreturn function(o, k) return o[k] end,\n" ++
  "       function(o, k, v) o[k] = v end,\n" ++
  "       function(f, ...) return f(...) end\n"

/-- Makes the function that iterates over tables, and over the properties of host objects. -/
def eachSource : String :=
  "\nlocal property_names = ...\n" ++
  "return function(t)\n" ++
  "  if type(t) == \"table\" then\n" ++
  "    return next, t, nil\n" ++
  "  end\n" ++
  "  local names = property_names(t)\n" ++
  "  local i = 0\n" ++
  "  return function()\n" ++
  "    i = i + 1\n" ++
  "    local name = names[i]\n" ++
  "    if name ~= nil then\n" ++
  "      return name, t[name]\n" ++
  "    end\n" ++
  "  end\n" ++
  "end\n"

def newCell (s : StateId) (cell : Script.Cell) : Action Ref := .perform (.allocate s cell)

def newTableOf (s : StateId) (entries : List (Datum × Datum)) : Action Ref :=
  newCell s (.table (entries.foldl (fun t (k, v) => t.set k v) ({} : Script.Table)) none)

def contentDatum (s : StateId) : Content → Action Datum
  | .function b => do pure (.function (← newCell s (.builtin b)))
  | .constant d => pure d
  | .table => do pure (.table (← newTableOf s []))
  | .file => do pure (.userdata (← newCell s .file))

def contentEntries (s : StateId) (names : List (String × Content)) :
    Action (List (Datum × Datum)) :=
  names.mapM fun (name, content) => do pure (.str name, ← contentDatum s content)

/-- Makes strings and open files find the functions of their libraries. -/
def equipLibrary (s : StateId) (library : Library) (table : Ref) : Action Unit := do
  match library with
  | .string => do
    let metatable ← newTableOf s [(.str "__index", .table table)]
    .perform (.equip s (.strings metatable))
  | .io => do
    let methods ← newTableOf s (← contentEntries s Content.fileMethods)
    let metatable ← newTableOf s
      [(.str "__index", .table methods), (.str "__name", .str "FILE*")]
    .perform (.equip s (.files metatable))
  | _ => pure ()

def openLibrary (s : StateId) (library : Library) : Action (Datum × Datum) := do
  let table ← newTableOf s (← contentEntries s (Content.ofLibrary library))
  equipLibrary s library table
  pure (.str library.name, .table table)

def openLibraries (s : StateId) (globals : Ref) (libraries : List Library) :
    Action Unit := do
  let base ← contentEntries s Content.base
  let tables ← (Library.all.filter libraries.contains).mapM (openLibrary s)
  let extra ←
    if libraries.contains .package then contentEntries s [("require", .function (.missing "require"))]
    else pure []
  let own : List (Datum × Datum) := [(.str "_G", .table globals)]
  let content := (base ++ tables ++ extra ++ own).foldl
    (fun t (k, v) => t.set k v) ({} : Script.Table)
  .perform (.write globals (.table content none))

def functionRefs (data : List Datum) : List Ref :=
  data.filterMap fun
    | .function r => some r
    | _ => none

def installHelpers (s : StateId) : Action Unit := do
  let data ← runTask s (.chunk (.ofString "=moonbridge") (.ofString helperSource) [])
  .perform (.equip s (.helpers (functionRefs data)))

/-- The names of the host library. -/
def hostFunctions : List (String × HostFunction) :=
  [("new_object", .newObject), ("connect", .connect),
   ("connect_slots_by_name", .connectSlotsByName), ("disconnect", .disconnect),
   ("meta_type", .metaType), ("type", .typeOf)]

def installEach (s : StateId) (globals : Ref) : Action Unit := do
  let names ← newCell s (.builtin (.host .propertyNames))
  let data ← runTask s (.chunk (.ofString "=each") (.ofString eachSource) [.function names])
  discard <| runTask s (.assign (.table globals) (.str "each") (data.headD .nil))

def installHostLibrary (s : StateId) (globals : Ref) (config : HostLibConfig) :
    Action Unit := do
  set s (config.namespace_ ++ ".meta") (← wrapNative s .typeNamespace)
  hostFunctions.forM fun (name, f) => registerFunction s (config.namespace_ ++ "." ++ name) f
  if config.installEach then installEach s globals

def equip (s : StateId) (config : Config) : Action Unit := do
  match ← .view fun w => (w.engine? s).map (·.globals) with
  | none => .throw .stateClosed
  | some globals => do
    openLibraries s globals config.engine.libraries
    installHelpers s
    (← .view (·.functions)).forM fun (path, f) => registerFunction s path f
    if config.hostLib.enabled then installHostLibrary s globals config.hostLib

/-- Opens a state. -/
def openState (config : Config) : Action StateId := do
  let s ← .perform (.openEngine config)
  match ← .attempt (equip s config) with
  | .ok () => pure s
  | .error e => do
    discard <| close s
    .throw e

end ScriptBridge.State
