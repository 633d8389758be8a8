import ScriptGate.Lua.State

/-!
# Arguments of library functions

A library function either gives values or fails with a message. Arguments are converted where the
guest language allows it: texts that write numbers to numbers, and numbers to texts.
-/

namespace ScriptGate.Lua.Library

abbrev Result := Except String

structure Args where
  function : String
  values : List Value

namespace Args

/-- The argument at a place, from zero on; nil where there is none. -/
def get (a : Args) (i : Nat) : Value := a.values.getD i .nil

def fail {α : Type} (a : Args) (i : Nat) (what : String) : Result α :=
  .error ("bad argument #" ++ toString (i + 1) ++ " to '" ++ a.function ++ "' (" ++ what ++ ")")

def wrongType {α : Type} (a : Args) (i : Nat) (expected : String) : Result α :=
  let got := match a.values[i]? with
    | some v => v.typeName
    | none => "no value"
  a.fail i (expected ++ " expected, got " ++ got)

def any (a : Args) (i : Nat) : Result Value :=
  match a.values[i]? with
  | some v => .ok v
  | none => a.fail i "value expected"

def number (a : Args) (i : Nat) : Result Number :=
  match (a.get i).toNumber? with
  | some n => .ok n
  | none => a.wrongType i "number"

def float (a : Args) (i : Nat) : Result Binary64 := (a.number i).map Number.toFloat

def int64 (a : Args) (i : Nat) : Result Int64 :=
  match (a.get i).toNumber? with
  | some n =>
    match n.toInt? with
    | some k => .ok k
    | none => a.fail i "number has no integer representation"
  | none => a.wrongType i "number"

def int (a : Args) (i : Nat) : Result Int := (a.int64 i).map Int64.toInt

def intOr (a : Args) (i : Nat) (default : Int) : Result Int :=
  if (a.get i).isNil then .ok default else a.int i

def text (a : Args) (i : Nat) : Result Bytes :=
  match (a.get i).toText? with
  | some s => .ok s
  | none => a.wrongType i "string"

def textOr (a : Args) (i : Nat) (default : Bytes) : Result Bytes :=
  if (a.get i).isNil then .ok default else a.text i

def table (a : Args) (i : Nat) : Result Nat :=
  match a.get i with
  | .table place => .ok place
  | _ => a.wrongType i "table"

def isCallable : Value → Bool
  | .closure _ | .builtin _ | .host _ => true
  | _ => false

def callable (a : Args) (i : Nat) : Result Value :=
  if isCallable (a.get i) then .ok (a.get i) else a.wrongType i "function"

end Args

end ScriptGate.Lua.Library
