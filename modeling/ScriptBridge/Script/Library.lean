import ScriptBridge.Config
import ScriptBridge.Script.Builtin

/-!
What the standard library holds: by library the names of its functions, its constants and its open
files. A function that this engine does not have is there all the same, so that scripts find it.
-/

namespace ScriptBridge

namespace Script

/-- What stands under a name of a library. -/
inductive Content where
  | function (b : Builtin)
  | constant (d : Datum)
  | table
  | file

namespace Content

private def missing (names : List String) : List (String × Content) :=
  names.map fun name => (name, .function (.missing name))

private def functions (items : List (String × Builtin)) : List (String × Content) :=
  items.map fun (name, b) => (name, .function b)

/-- The functions and constants that do not belong to a library. -/
def base : List (String × Content) :=
  functions
    [("assert", .assert), ("collectgarbage", .collectgarbage), ("error", .error),
     ("getmetatable", .getmetatable), ("ipairs", .ipairs), ("next", .next), ("pairs", .pairs),
     ("pcall", .pcall), ("print", .print), ("rawequal", .rawequal), ("rawget", .rawget),
     ("rawlen", .rawlen), ("rawset", .rawset), ("select", .select),
     ("setmetatable", .setmetatable), ("tonumber", .tonumber), ("tostring", .tostring),
     ("type", .type), ("xpcall", .xpcall)] ++
  missing ["dofile", "load", "loadfile", "warn"] ++ [("_VERSION", .constant (.str "Lua 5.4"))]

/-- The names of a library and what stands under them. -/
def ofLibrary : Library → List (String × Content)
  | .coroutine =>
    functions
      [("close", .coroutineClose), ("create", .coroutineCreate),
       ("isyieldable", .coroutineIsYieldable), ("resume", .coroutineResume),
       ("running", .coroutineRunning), ("status", .coroutineStatus), ("wrap", .coroutineWrap),
       ("yield", .coroutineYield)]
  | .table => missing ["concat", "insert", "move", "pack", "remove", "sort", "unpack"]
  | .io =>
    missing
      ["close", "flush", "input", "lines", "open", "output", "popen", "read", "tmpfile", "type",
       "write"] ++
    [("stdin", .file), ("stdout", .file), ("stderr", .file)]
  | .os =>
    missing
      ["clock", "date", "difftime", "execute", "exit", "getenv", "remove", "rename", "setlocale",
       "time", "tmpname"]
  | .string =>
    functions [("match", .stringMatch), ("rep", .stringRep), ("sub", .stringSub)] ++
    missing
      ["byte", "char", "dump", "find", "format", "gmatch", "gsub", "len", "lower", "pack",
       "packsize", "reverse", "unpack", "upper"]
  | .utf8 =>
    missing ["char", "codepoint", "codes", "len", "offset"] ++
    [("charpattern", .constant (.text
      (Bytes.ofString "[\x00-\x7f" ++ [0xc2, 0x2d, 0xfd] ++ Bytes.ofString "][" ++
        [0x80, 0x2d, 0xbf] ++ Bytes.ofString "]*")))]
  | .math =>
    functions [("floor", .mathFloor)] ++
    [("huge", .constant (.float .infinity)),
     ("maxinteger", .constant (.int Int64.maxValue)),
     ("mininteger", .constant (.int Int64.minValue)),
     ("pi", .constant (.float ⟨0x400921fb54442d18⟩))] ++
    missing
      ["abs", "acos", "asin", "atan", "ceil", "cos", "deg", "exp", "fmod", "log", "max", "min",
       "modf", "rad", "random", "randomseed", "sin", "sqrt", "tan", "tointeger", "type", "ult"]
  | .package =>
    missing ["loadlib", "searchpath"] ++
    [("config", .constant (.str "/\n;\n?\n!\n-\n")), ("cpath", .constant (.str "")),
     ("path", .constant (.str "")), ("loaded", .table), ("preload", .table),
     ("searchers", .table)]

/-- The names of the operations that open files have. -/
def fileMethods : List (String × Content) :=
  missing ["close", "flush", "lines", "read", "seek", "setvbuf", "write"]

end Content

/-- The name under which a function is found without regard to how it was called. -/
def Builtin.path? (b : Builtin) : Option String :=
  let find (names : List (String × Content)) : Option String :=
    (names.find? fun (_, content) => match content with
      | .function f => f == b
      | _ => false).map (·.1)
  (find Content.base).orElse fun _ =>
    Library.all.findSome? fun library =>
      (find (Content.ofLibrary library)).map fun name => library.name ++ "." ++ name

end Script

end ScriptBridge
