import ScriptGate.Http.Reason
import ScriptGate.Http.Server
import ScriptGate.Http.Url
import ScriptGate.Word

/-!
# Messages on the wire

A message is a start line, header lines, an empty line and a body of the announced length. Messages
that are written here announce the end of the connection.
-/

namespace ScriptGate.Http.Wire

/-- What stands in front of a body: the words of the start line and the header lines. -/
structure Head where
  start : List String
  headers : List HeaderLine

/-- Splits bytes behind the first empty line, if there is one; `seen` holds what has been passed,
the last byte first. -/
def splitHead (seen : Bytes) : Bytes → Option (Bytes × Bytes)
  | 0x0A :: 0x0D :: 0x0A :: rest | 0x0A :: 0x0A :: rest => some (seen.reverse, rest)
  | b :: rest => splitHead (b :: seen) rest
  | [] => none

def headerLine? (line : String) : Option HeaderLine :=
  let name := line.toList.takeWhile (· ≠ ':')
  match line.toList.drop name.length with
  | _ :: value => some ⟨String.ofList name, Text.trim (String.ofList value)⟩
  | [] => none

def head? (s : Bytes) : Option (Head × Bytes) := do
  let (head, rest) ← splitHead [] s
  let lines := (Text.split '\n' (Utf8.lossy head)).map Text.trim
  let words := (Text.split ' ' (lines.headD "")).filter (· ≠ "")
  return (⟨words, lines.tail.filterMap headerLine?⟩, rest)

def Head.header? (h : Head) (name : String) : Option String :=
  (h.headers.find? fun l => Caller.lower l.name = name).map fun l => Utf8.lossy l.value

def Head.length? (h : Head) : Option Nat :=
  (h.header? "content-length").bind fun text => (Decimal.unsigned Word.count64 text).toOption

def Head.request? (h : Head) (body : Option Bytes) : Option Request :=
  match h.start with
  | method :: target :: _ => some { method, target, headers := h.headers, body }
  | _ => none

def message (start : String) (headers : List (String × String)) (body : Bytes) : Bytes :=
  let lines := headers ++ [("content-length", toString body.length), ("connection", "close")]
  Bytes.ofString
    (start ++ "\r\n" ++ String.join (lines.map fun l => l.1 ++ ": " ++ l.2 ++ "\r\n") ++ "\r\n") ++
    body

def answer (a : Answer) : Bytes :=
  message ("HTTP/1.1 " ++ toString a.status ++ " " ++ reason a.status) a.headers a.body

def post (u : Url) (session : Option String) (body : Bytes) : Bytes :=
  message ("POST " ++ u.path ++ u.tail ++ " HTTP/1.1")
    ([("host", u.host), ("content-type", "application/json"), ("accept", "*/*")] ++
      (session.map (sessionHeader, ·)).toList) body

end ScriptGate.Http.Wire
