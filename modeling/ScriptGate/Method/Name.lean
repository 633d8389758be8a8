import ScriptGate.Text.Split

/-!
# Method names

A method name is one or more segments of ASCII letters and digits, joined by single dots. Reading
one decides between the three ways in which a call names no script.
-/

namespace ScriptGate.Method

inductive Fault where
  | missing
  | invalidFormat (name : String)
  | notFound (name : String)
  deriving DecidableEq, Repr

def Fault.message : Fault → String
  | .missing => "method name is empty"
  | .invalidFormat name => "invalid method format: " ++ name
  | .notFound name => "method not found: " ++ name

def isSegment (piece : List Char) : Bool := !piece.isEmpty && piece.all Char.isAlphanum

def segments (name : String) : Except Fault (List String) :=
  if name = "" then .error .missing
  else
    let pieces := Text.splitAt '.' name.toList
    if pieces.all isSegment then .ok (pieces.map String.ofList) else .error (.invalidFormat name)

end ScriptGate.Method
