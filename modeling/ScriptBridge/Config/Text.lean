import ScriptBridge.Config
import ScriptBridge.Json.Tree

/-!
Configurations as descriptions and as JSON.
-/

namespace ScriptBridge

private def braced (title : String) (fields : List (String × String)) : String :=
  title ++ " \x7b " ++ ", ".intercalate (fields.map fun (name, value) => name ++ ": " ++ value) ++ " \x7d"

private def listed (items : List String) : String := "[" ++ ", ".intercalate items ++ "]"

def EngineConfig.description (c : EngineConfig) : String :=
  braced "EngineConfig"
    [("libraries", listed (c.libraries.map (·.title))), ("chunk_name", Text.quoted c.chunkName)]

def HostLibConfig.description (c : HostLibConfig) : String :=
  braced "HostLibConfig"
    [("enabled", toString c.enabled), ("namespace", Text.quoted c.namespace_),
     ("install_each", toString c.installEach)]

def DebugConfig.description (c : DebugConfig) : String :=
  braced "DebugConfig" [("check_stack", toString c.checkStack)]

def Config.description (c : Config) : String :=
  braced "BridgeConfig"
    [("engine", c.engine.description), ("host_lib", c.hostLib.description),
     ("debug", c.debug.description)]

def RunConfig.description (c : RunConfig) : String :=
  braced "RunConfig"
    [("show_returns", toString c.showReturns), ("collect_after_run", toString c.collectAfterRun),
     ("bridge", c.bridge.description)]

def Config.tree (c : Config) : Json.Tree :=
  .object
    [("debug", .object [("check_stack", .bool c.debug.checkStack)]),
     ("engine", .object
       [("chunk_name", .string c.engine.chunkName),
        ("libraries", .strings (c.engine.libraries.map (·.name)))]),
     ("host_lib", .object
       [("enabled", .bool c.hostLib.enabled), ("install_each", .bool c.hostLib.installEach),
        ("namespace", .string c.hostLib.namespace_)])]

end ScriptBridge
