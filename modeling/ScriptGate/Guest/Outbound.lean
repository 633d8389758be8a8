import ScriptGate.Caller
import ScriptGate.Guest.Argument
import ScriptGate.Http.Reason

/-!
# Requests to other servers

A request that a script makes tells the other server who called the script. The answer comes back as
a table; an answer with too long a body counts as a failure.
-/

namespace ScriptGate.Guest

open Lua (Value Heap Table)

namespace Outbound

structure Request where
  method : String
  url : String
  headers : List (String × String)
  /-- The type and the bytes of the body of a `POST`. -/
  body : Option (String × Bytes) := none

structure Response where
  status : Nat
  headers : List HeaderLine
  body : Bytes
  /-- The length that has been announced. -/
  length : Option Nat := none

/-- How requests are carried out: an answer, or the words for a failure. -/
abbrev Network := Request → Except String Response

def maxBody : Nat := 10 * 1024 * 1024

def fetch (network : Network) (r : Request) : Except String Response := do
  let answer ← network r
  if maxBody < answer.body.length then
    .error ("response body exceeds " ++ toString maxBody ++ " bytes")
  else return answer

/-- The headers of an answer: under each name the visible values of its lines. -/
def headerPairs (r : Response) : List (String × String) :=
  Caller.headerPairs { session := "", headers := r.headers }

def toTable (r : Response) (h : Heap) : Value × Heap :=
  let (headers, h) := h.newTable
    (.ofEntries ((headerPairs r).map fun (n, v) => (.text n, .text v)))
  h.newTable (.ofEntries [
    (.text "status", .ofNat r.status), (.text "status_text", .text (Http.reason r.status)),
    (.text "body", .str r.body), (.text "content_length", .ofNat (r.length.getD r.body.length)),
    (.text "headers", headers)])

/-- Reads the arguments of a request: whether it is logged, and the request. -/
def read (post : Bool) (c : Caller) (args : List Value) : Except Fault (Bool × Request) := do
  let log := (Argument.get args 0).isTrue
  let url ← Argument.text (Argument.get args 1)
  let headers := c.initiatorHeaders
  if post then
    let type ← Argument.text (Argument.get args 2)
    let body ← Argument.bytes (Argument.get args 3)
    return (log, { method := "POST", url, headers, body := some (type, body) })
  else return (log, { method := "GET", url, headers })

end Outbound

end ScriptGate.Guest
