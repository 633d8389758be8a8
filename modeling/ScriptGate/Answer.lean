import ScriptGate.Rpc.Error

/-!
# Answers that scripts declare

`set` and `setError` collect an answer, `send` and `sendError` collect and close it. Nothing after
the first of the closing two counts. `Draft.finish` gives the answer: what the closing one asks for,
and without one the error if any part of it was set, else the result.
-/

namespace ScriptGate.Answer

/-- The parts of an error that a script has given. -/
structure ErrorDraft where
  code : Option Int := none
  message : Option String := none
  data : Option Json := none
  deriving DecidableEq

namespace ErrorDraft

def isEmpty (e : ErrorDraft) : Bool := e.code.isNone && e.message.isNone && e.data.isNone

/-- The parts of both drafts, those of the later one where both have them. -/
def merge (earlier later : ErrorDraft) : ErrorDraft where
  code := later.code.or earlier.code
  message := later.message.or earlier.message
  data := later.data.or earlier.data

/-- The error of a draft: an internal error where the code is missing or too large, or the message
is missing. -/
def toError (e : ErrorDraft) : Rpc.Error :=
  let message := e.message.getD Rpc.Error.internalError.message
  match e.code with
  | some c =>
    if h : Rpc.IsCode c then ⟨c, message, e.data, h⟩
    else { Rpc.Error.internalError with message, data := e.data }
  | none => { Rpc.Error.internalError with message, data := e.data }

end ErrorDraft

/-- Which kind of answer a script has closed with. -/
inductive Closing where
  | result
  | error
  deriving DecidableEq, Repr

/-- What a script has declared so far. -/
structure Draft where
  result : Option Json := none
  error : ErrorDraft := {}
  closing : Option Closing := none
  deriving DecidableEq

inductive Reply where
  | result (value : Json)
  | error (error : Rpc.Error)
  deriving DecidableEq

namespace Draft

def isClosed (d : Draft) : Bool := d.closing.isSome

/-- A pending result with a new value: members are added to an object by an object, and any other
pair leaves the new value. -/
def combine : Option Json → Json → Json
  | some (.obj pending), .obj members =>
    .obj (members.foldl (fun ms m => Json.insert m.1 m.2 ms) pending)
  | _, value => value

def set (d : Draft) (value : Json) : Draft :=
  if d.isClosed then d else { d with result := some (combine d.result value) }

def setError (d : Draft) (parts : ErrorDraft) : Draft :=
  if d.isClosed then d else { d with error := d.error.merge parts }

def send (d : Draft) (value : Option Json) : Draft :=
  if d.isClosed then d
  else { (match value with | some v => d.set v | none => d) with closing := some .result }

def sendError (d : Draft) (parts : ErrorDraft) : Draft :=
  if d.isClosed then d else { d.setError parts with closing := some .error }

/-- The answer of a script that has come to its end. -/
def finish (d : Draft) : Reply :=
  let result := .result (d.result.getD .null)
  match d.closing with
  | some .result => result
  | some .error => .error d.error.toError
  | none => if d.error.isEmpty then result else .error d.error.toError

end Draft

end ScriptGate.Answer
