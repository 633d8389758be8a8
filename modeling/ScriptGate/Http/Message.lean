import ScriptGate.Rpc.Response

/-!
# Answers over HTTP

A status, header lines in order of their names, and a body. Every answer is announced as JSON, an
empty one too, and carries the session where it is a legal header value.
-/

namespace ScriptGate.Http

def sessionHeader : String := "x-session-uuid"

abbrev Status := Nat

def ok : Status := 200
def badRequest : Status := 400
def notFound : Status := 404
def methodNotAllowed : Status := 405
def internalServerError : Status := 500

structure Answer where
  status : Status
  headers : List (String × String)
  body : Bytes
  deriving DecidableEq

/-- Whether a text can stand in a header line: it has no control character but the tab. -/
def isHeaderValue (s : String) : Bool :=
  (Bytes.ofString s).all fun b => b == 0x09 || (0x20 ≤ b && b != 0x7F)

def Answer.of (status : Status) (body : Bytes) (session : Option String) : Answer where
  status
  headers := ("content-type", "application/json") ::
    ((session.filter isHeaderValue).map (sessionHeader, ·)).toList
  body

def Answer.header? (a : Answer) (name : String) : Option String := a.headers.lookup name

def Answer.session? (a : Answer) : Option String := a.header? sessionHeader

end ScriptGate.Http
