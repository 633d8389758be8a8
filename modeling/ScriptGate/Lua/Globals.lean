import ScriptGate.Lua.Library.Unicode
import ScriptGate.Lua.State

/-!
# The globals of a guest

The library as a guest finds it. What would let a script out (other programs, files, the standard
streams, compiled code) is not there.
-/

namespace ScriptGate.Lua

structure LibraryTable where
  name : String
  members : List (String × Value)

namespace Globals

def functions (fs : List (String × Builtin)) : List (String × Value) :=
  fs.map fun f => (f.1, .builtin f.2)

/-- The functions that are globals themselves. -/
def basic : List (String × Value) := functions [
  ("assert", .assert), ("collectgarbage", .collectgarbage), ("error", .error),
  ("getmetatable", .getmetatable), ("ipairs", .ipairs), ("load", .load), ("next", .next),
  ("pairs", .pairs), ("pcall", .pcall), ("rawequal", .rawequal), ("rawget", .rawget),
  ("rawlen", .rawlen), ("rawset", .rawset), ("require", .require), ("select", .select),
  ("setmetatable", .setmetatable), ("tonumber", .tonumber), ("tostring", .tostring),
  ("type", .type), ("warn", .warn), ("xpcall", .xpcall)]

def libraries : List LibraryTable := [
  ⟨"coroutine", functions [
    ("close", .coroutineClose), ("create", .coroutineCreate),
    ("isyieldable", .coroutineIsYieldable), ("resume", .coroutineResume),
    ("running", .coroutineRunning), ("status", .coroutineStatus), ("wrap", .coroutineWrap),
    ("yield", .coroutineYield)]⟩,
  ⟨"math", functions [
    ("abs", .mathAbs), ("acos", .mathAcos), ("asin", .mathAsin), ("atan", .mathAtan),
    ("ceil", .mathCeil), ("cos", .mathCos), ("deg", .mathDeg), ("exp", .mathExp),
    ("floor", .mathFloor), ("fmod", .mathFmod), ("log", .mathLog), ("max", .mathMax),
    ("min", .mathMin), ("modf", .mathModf), ("rad", .mathRad), ("random", .mathRandom),
    ("randomseed", .mathRandomseed), ("sin", .mathSin), ("sqrt", .mathSqrt), ("tan", .mathTan),
    ("tointeger", .mathToInteger), ("type", .mathType), ("ult", .mathUlt)] ++ [
    ("huge", .float Binary64.infinity), ("maxinteger", .int Int64.maxValue),
    ("mininteger", .int Int64.minValue), ("pi", .float ⟨0x400921FB54442D18⟩)]⟩,
  ⟨"os", functions [
    ("clock", .osClock), ("date", .osDate), ("difftime", .osDifftime), ("time", .osTime)]⟩,
  ⟨"string", functions [
    ("byte", .stringByte), ("char", .stringChar), ("dump", .stringDump), ("find", .stringFind),
    ("format", .stringFormat), ("gmatch", .stringGmatch), ("gsub", .stringGsub),
    ("len", .stringLen), ("lower", .stringLower), ("match", .stringMatch), ("rep", .stringRep),
    ("reverse", .stringReverse), ("sub", .stringSub), ("upper", .stringUpper)]⟩,
  ⟨"table", functions [
    ("concat", .tableConcat), ("insert", .tableInsert), ("move", .tableMove),
    ("pack", .tablePack), ("remove", .tableRemove), ("sort", .tableSort),
    ("unpack", .tableUnpack)]⟩,
  ⟨"utf8", functions [
    ("char", .utf8Char), ("codepoint", .utf8Codepoint), ("codes", .utf8Codes), ("len", .utf8Len),
    ("offset", .utf8Offset)] ++ [("charpattern", .str Library.Unicode.charPattern)]⟩]

def table (h : Heap) (members : List (String × Value)) : Nat × Heap :=
  (h.tables.size,
    (h.newTable (Table.ofEntries (members.map fun m => (.text m.1, m.2)))).2)

def set (h : Heap) (place : Nat) (name : String) (v : Value) : Heap := h.rawSet place (.text name) v

def addLibrary (h : Heap) (l : LibraryTable) : Heap :=
  let (place, h) := table h l.members
  let h := set h h.globals l.name (.table place)
  let h := set h h.loaded l.name (.table place)
  if l.name = "string" then
    let (meta_, h) := table h [("__index", .table place)]
    { h with textMetatable := meta_ }
  else h

def addPackage (h : Heap) (root : String) : Heap :=
  let (searchers, h) :=
    h.newTable (Table.ofList
      [.builtin .preloadSearcher, .builtin .fileSearcher, .builtin .noSearcher,
        .builtin .noSearcher])
  let (place, h) := table h [
    ("loaded", .table h.loaded), ("preload", .table h.preload), ("searchers", searchers),
    ("searchpath", .builtin .searchpath), ("path", .text (root ++ "/?.lua")), ("cpath", .text ""),
    ("config", .text "/\n;\n?\n!\n-\n")]
  let h := set h h.globals "package" (.table place)
  let h := set h h.loaded "package" (.table place)
  { h with package := place }

end Globals

/-- The heap of a guest that has not begun, for scripts below a directory. -/
def Heap.initial (root : String) (clock : Int) (seed : UInt64) : Heap :=
  let h : Heap := { clock, random := seed, threads := #[{ status := .running }] }
  let (globals, h) := Globals.table h Globals.basic
  let (loaded, h) := Globals.table h []
  let (preload, h) := Globals.table h []
  let (arrays, h) := Globals.table h [("__jsonarray", .bool true)]
  let h := { h with globals, loaded, preload, arrayMetatable := arrays }
  let h := Globals.set h globals "_G" (.table globals)
  let h := Globals.set h globals "_VERSION" (.text "Lua 5.4")
  let h := Globals.set h loaded "_G" (.table globals)
  Globals.addPackage (Globals.libraries.foldl Globals.addLibrary h) root

end ScriptGate.Lua
