import ScriptGate.Guest.Capability
import ScriptGate.Lua.Number

/-!
# Values of the guest language

Tables, closures and coroutines are known by their place in the heap; library and host functions by
which they are. Equality of this type is that of table keys, where a double with an integral value
has been turned into an integer.
-/

namespace ScriptGate.Lua

inductive Builtin where
  | assert | collectgarbage | error | getmetatable | ipairs | ipairsStep | load | next | pairs
  | pcall | rawequal | rawget | rawlen | rawset | require | select | setmetatable | tonumber
  | tostring | type | warn | xpcall
  | preloadSearcher | fileSearcher | noSearcher | searchpath
  | coroutineClose | coroutineCreate | coroutineIsYieldable | coroutineResume | coroutineRunning
  | coroutineStatus | coroutineWrap | coroutineYield
  | mathAbs | mathAcos | mathAsin | mathAtan | mathCeil | mathCos | mathDeg | mathExp | mathFloor
  | mathFmod | mathLog | mathMax | mathMin | mathModf | mathRad | mathRandom | mathRandomseed
  | mathSin | mathSqrt | mathTan | mathToInteger | mathType | mathUlt
  | osClock | osDate | osDifftime | osTime
  | stringByte | stringChar | stringDump | stringFind | stringFormat | stringGmatch | stringGsub
  | stringLen | stringLower | stringMatch | stringRep | stringReverse | stringSub | stringUpper
  | tableConcat | tableInsert | tableMove | tablePack | tableRemove | tableSort | tableUnpack
  | utf8Char | utf8Codepoint | utf8Codes | utf8CodesStep | utf8Len | utf8Offset
  deriving DecidableEq

inductive Value where
  | nil
  | bool (b : Bool)
  | number (n : Number)
  | str (s : Bytes)
  | table (place : Nat)
  | closure (place : Nat)
  | builtin (f : Builtin)
  | host (f : Guest.Capability)
  | thread (place : Nat)
  | object (o : Guest.Object)
  /-- The value that stands for a null of the outside. -/
  | null
  | pointer (address : Nat)
  deriving DecidableEq, Inhabited

namespace Value

def int (i : Int64) : Value := .number (.int i)

def ofNat (n : Nat) : Value := .int (Int64.ofNat n)

def float (x : Binary64) : Value := .number (.float x)

def text (s : String) : Value := .str s

def isTrue : Value → Bool
  | .nil | .bool false => false
  | _ => true

def isNil : Value → Bool
  | .nil => true
  | _ => false

def typeName : Value → String
  | .nil => "nil"
  | .bool _ => "boolean"
  | .number _ => "number"
  | .str _ => "string"
  | .table _ => "table"
  | .closure _ | .builtin _ | .host _ => "function"
  | .thread _ => "thread"
  | .object _ | .null | .pointer _ => "userdata"

def rawEq : Value → Value → Bool
  | .number a, .number b => a.eq b
  | a, b => a == b

def toNumber? : Value → Option Number
  | .number n => some n
  | .str s => Number.ofText? s
  | _ => none

def toInt? (v : Value) : Option Int64 := v.toNumber?.bind Number.toInt?

def toText? : Value → Option Bytes
  | .str s => some s
  | .number n => some n.text
  | _ => none

/-- A value as a table key: nothing for nil and for what is no number. -/
def key? : Value → Option Value
  | .nil => none
  | .number (.float x) =>
    if x.isNaN then none
    else
      match Number.toInt? (.float x) with
      | some i => some (.int i)
      | none => some (.float x)
  | v => some v

end Value

end ScriptGate.Lua
