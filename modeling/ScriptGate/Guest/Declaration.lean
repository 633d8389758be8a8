import ScriptGate.Answer
import ScriptGate.Guest.Argument
import ScriptGate.Text.Blank
import ScriptGate.Word

/-!
# How a script declares its answer

A call of one of the four functions of the response is first read as a declaration; only a call that
can be read changes the answer. The declarations that close it end the script as well.
-/

namespace ScriptGate.Guest

open Lua (Value Heap)

inductive Declaration where
  | set (value : Json)
  | send (value : Option Json)
  | setError (parts : Answer.ErrorDraft)
  | sendError (parts : Answer.ErrorDraft)

namespace Declaration

def apply : Declaration → Answer.Draft → Answer.Draft
  | .set v, d => d.set v
  | .send v, d => d.send v
  | .setError e, d => d.setError e
  | .sendError e, d => d.sendError e

/-- Whether a declaration ends the script. -/
def isFinal : Declaration → Bool
  | .set _ | .setError _ => false
  | .send _ | .sendError _ => true

/-! ### Reading the arguments -/

/-- The integer that a decimal numeral writes, if it has sixty-four bits. -/
def integer? (s : String) : Option Int :=
  let (negative, ds) := match s.toList with
    | '-' :: r => (true, r)
    | '+' :: r => (false, r)
    | r => (false, r)
  if ds.isEmpty || !ds.all Char.isDigit then none
  else
    let n : Int := ds.foldl (fun n c => n * 10 + (c.toNat - 0x30)) 0
    let i := if negative then -n else n
    if Word.IsSigned64 i then some i else none

/-- The code of an error: an integer, an integral double held in the range of integers, or a numeral
with blanks around it. -/
def code (v : Value) : Except Fault (Option Int) :=
  match v with
  | .nil => .ok none
  | .number (.int i) => .ok (some i.toInt)
  | .number (.float x) =>
    if x.isFinite && x.isIntegral then .ok (some (x.saturate Word.least64 Word.greatest64))
    else .error .notACode
  | .str s =>
    match integer? (Text.trim (Utf8.lossy s)) with
    | some i => .ok (some i)
    | none => .error .notACode
  | _ => .error .notACode

def message (h : Heap) (v : Value) : Option String := if v.isNil then none else some (render h v)

def data (h : Heap) (v : Value) : Except Fault (Option Json) :=
  match v with
  | .nil | .null => .ok none
  | v => (Argument.json h v).map some

/-- The parts of an error, given one after the other or as the members of a table. -/
def parts (h : Heap) (args : List Value) : Except Fault Answer.ErrorDraft := do
  let (c, m, d) := match Argument.get args 0 with
    | .table place => (h.member place "code", h.member place "message", h.member place "data")
    | first => (first, Argument.get args 1, Argument.get args 2)
  return { code := ← code c, message := message h m, data := ← data h d }

/-- The value of an answer; nil gives none. -/
def value? (h : Heap) (v : Value) : Except Fault (Option Json) :=
  Argument.optional (Argument.json h) v

def read (f : Capability) (h : Heap) (args : List Value) : Option (Except Fault Declaration) :=
  match f with
  | .responseSet => some ((Argument.json h (Argument.get args 0)).map .set)
  | .responseSend => some ((value? h (Argument.get args 0)).map .send)
  | .responseSetError => some ((parts h args).map .setError)
  | .responseSendError => some ((parts h args).map .sendError)
  | _ => none

end Declaration

end ScriptGate.Guest
