import ScriptGate.Bridge
import ScriptGate.Json.Printer
import ScriptGate.Word

/-!
# Arguments of host functions

What a script hands to a function of the host is converted before the function does anything. A text
may be given as a number, a condition as anything, and a number as a text; what is left out is nil.
-/

namespace ScriptGate.Guest

open Lua (Value Heap Number)

/-- Why a function of the host raises an error. -/
inductive Fault where
  /-- A value that is not what was asked for. -/
  | unfit (wanted : String)
  /-- Bytes that are no UTF-8 text. -/
  | notText
  /-- A number outside the range of integers. -/
  | outOfRange
  | bridge (f : Bridge.Fault)
  | notACode
  | noMember (name : String)
  /-- Not a fault of the script: the answer is closed, and the script is to end. -/
  | halt
  deriving DecidableEq, Repr

def Fault.message : Fault → String
  | .unfit wanted => "error converting a value to " ++ wanted
  | .notText => "invalid utf-8 sequence"
  | .outOfRange => "runtime error: number out of range"
  | .bridge f => "runtime error: " ++ f.message
  | .notACode => "runtime error: error code must be an integer"
  | .noMember name => "runtime error: attempt to get an unknown field '" ++ name ++ "'"
  | .halt => "script halted by response.send"

namespace Argument

def get (args : List Value) (i : Nat) : Value := args.getD i .nil

def bytes (v : Value) : Except Fault Bytes :=
  match v.toText? with
  | some s => .ok s
  | none => .error (.unfit "string")

def text (v : Value) : Except Fault String := do
  match (← bytes v).toString? with
  | some s => .ok s
  | none => .error .notText

/-- An integer: a double and the number that a text writes are truncated. -/
def int (v : Value) : Except Fault Int64 :=
  match v.toNumber? with
  | none => .error (.unfit "integer")
  | some n =>
    match n.toInt? with
    | some i => .ok i
    | none =>
      let x := n.toFloat
      if x.isFinite then
        let i := x.truncate
        if Word.IsSigned64 i then .ok (Int64.ofInt i) else .error .outOfRange
      else .error .outOfRange

def table (v : Value) : Except Fault Nat :=
  match v with
  | .table place => .ok place
  | _ => .error (.unfit "table")

def optional {α : Type} (convert : Value → Except Fault α) (v : Value) : Except Fault (Option α) :=
  if v.isNil then .ok none else (convert v).map some

def json (h : Heap) (v : Value) : Except Fault Json := (Bridge.toJson h v).mapError Fault.bridge

def ofJson (v : Json) (h : Heap) : Except Fault (Value × Heap) :=
  (Bridge.ofJson v h).mapError Fault.bridge

end Argument

/-- The name of a kind of value as it is shown to people. -/
def kindName : Value → String
  | .null | .pointer _ => "lightuserdata"
  | .object (.failure _) => "error"
  | v => v.typeName

/-- A value as it is shown to people: a table as compact JSON. -/
def render (h : Heap) (v : Value) : String :=
  match v with
  | .nil => "nil"
  | .bool b => if b then "true" else "false"
  | .number (.int i) => toString i.toInt
  | .number (.float x) => Bridge.plainText x
  | .str s => Utf8.lossy s
  | .table _ =>
    match Bridge.toJson h v with
    | .ok j => j.text
    | .error _ => "<table>"
  | v => "<" ++ kindName v ++ ">"

end ScriptGate.Guest
