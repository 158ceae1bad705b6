import ScriptBridge.Config
import ScriptBridge.Json.Cursor

/-!
Configurations from JSON. A record is read from an object, where missing fields keep their defaults
and unknown ones are skipped, or from a list of its fields in order.
-/

namespace ScriptBridge.Config

open Json Json.Scan

/-- How one field of a record is read into it. -/
structure Field (σ : Type) where
  name : String
  read : σ → Scan σ

/-- The fields of a record from a list; those that are missing stay as they are. -/
private def listFields (isFirst : Bool) : List (Field σ) → σ → Scan σ
  | [], record => pure record
  | field :: fields, record => do
    if ← moreElements isFirst then listFields false fields (← field.read record)
    else pure record

private def objectFields (fields : List (Field σ)) (isFirst : Bool) (seen : List String)
    (record : σ) : Nat → Scan σ
  | 0 => pure record
  | n + 1 => do
    if ← moreKeys isFirst then
      eat
      let key ← Scan.string
      match fields.find? (·.name == key) with
      | some field =>
        if seen.contains key then failLater s!"duplicate field `{key}`"
        else do
          colon
          let record ← field.read record
          objectFields fields false (key :: seen) record n
      | none => do
        colon
        skipValue
        objectFields fields false seen record n
    else pure record

/-- A record with the given fields, starting from its defaults. -/
def readRecord (title : String) (fields : List (Field σ)) (defaults : σ) : Scan σ := do
  let b ← tokenOrEnd
  placed do
    if b == 0x5b then
      eat
      enclosed (listFields true fields defaults) endList
    else if b == 0x7b then
      eat
      let c ← get
      enclosed (objectFields fields true [] defaults (c.bytes.size + 1)) endObject
    else wrongType ("struct " ++ title)

private def libraryNames : String :=
  ", ".intercalate (Library.all.map fun l => "`" ++ l.name ++ "`")

private def libraryOfName (name : String) : Scan Library :=
  match Library.ofName? name with
  | some library => pure library
  | none => failLater ("unknown variant `" ++ name ++ "`, expected one of " ++ libraryNames)

/-- The name of a library, alone or as the only key of an object with the value null. -/
def readLibrary : Scan Library := do
  match ← peekToken with
  | none => failNext .endOfValue
  | some b =>
    if b == 0x22 then
      placed do
        eat
        libraryOfName (← Scan.string)
    else if b == 0x7b then do
      eat
      let library ← placed do
        let key ← stringValue "variant identifier"
        libraryOfName key
      colon
      null
      match ← peekToken with
      | some c => if c == 0x7d then eat; pure library else failHere .valueExpected
      | none => failHere .endOfObject
    else failNext .valueExpected

private def libraryRounds (isFirst : Bool) (found : List Library) : Nat → Scan (List Library)
  | 0 => pure found.reverse
  | n + 1 => do
    if ← moreElements isFirst then libraryRounds false ((← readLibrary) :: found) n
    else pure found.reverse

def readLibraries : Scan (List Library) := do
  let b ← tokenOrEnd
  placed do
    if b == 0x5b then
      eat
      let c ← get
      enclosed (libraryRounds true [] (c.bytes.size + 1)) endList
    else wrongType "a sequence"

def readEngine : Scan EngineConfig :=
  readRecord "EngineConfig"
    [⟨"libraries", fun c => do return { c with libraries := ← readLibraries }⟩,
     ⟨"chunk_name", fun c => do return { c with chunkName := ← stringValue "a string" }⟩] {}

def readHostLib : Scan HostLibConfig :=
  readRecord "HostLibConfig"
    [⟨"enabled", fun c => do return { c with enabled := ← boolean }⟩,
     ⟨"namespace", fun c => do return { c with namespace_ := ← stringValue "a string" }⟩,
     ⟨"install_each", fun c => do return { c with installEach := ← boolean }⟩] {}

def readDebug : Scan DebugConfig :=
  readRecord "DebugConfig" [⟨"check_stack", fun c => do return { c with checkStack := ← boolean }⟩] {}

def readConfig : Scan Config :=
  readRecord "BridgeConfig"
    [⟨"engine", fun c => do return { c with engine := ← readEngine }⟩,
     ⟨"host_lib", fun c => do return { c with hostLib := ← readHostLib }⟩,
     ⟨"debug", fun c => do return { c with debug := ← readDebug }⟩] {}

/-- The configuration that a JSON text describes, or what is wrong with the text. -/
def parse (text : String) : Except String Config :=
  (runAll readConfig text).mapError (·.text)

end ScriptBridge.Config
