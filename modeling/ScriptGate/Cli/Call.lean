import ScriptGate.Cli.Outcome
import ScriptGate.Http.Endpoint
import ScriptGate.Http.Message
import ScriptGate.Http.Url
import ScriptGate.Rpc.Request

/-!
# The command that calls

It sends one request to a gateway and prints the response as a value. The parameters are checked
before the address, and the session only when the request is made.
-/

namespace ScriptGate.Cli.Call

def form : Form where
  path := "luagate call"
  about := "Arguments for making a single RPC call. Prints the raw response JSON to stdout so " ++
    "the output can be piped into tools such as \x60jq\x60. call a method on a running gateway"
  settings := [
    { short := some 'p', long := "params", about := "JSON params (object or array)" },
    { long := "context-version", about := "context version selecting the back-end" },
    { short := some 's', long := "session", about := "session id to send in X-Session-UUID" },
    { long := "notify", kind := none, about := "send as a notification (no id, no response)" }]
  positions := [
    ("url", "full endpoint URL, e.g. http://127.0.0.1:8080/api/v1/rpc"),
    ("method", "dotted method name")]

structure Post where
  url : Http.Url
  session : Option String
  body : Bytes
  deriving DecidableEq

def sendFailure (url : String) (causes : List String) : Failure where
  message := "request to " ++ url ++ " failed"
  causes

/-- What stands in front of the causes when a request has been made and cannot be sent. -/
def sendCause (url : Http.Url) : String := "error sending request for url (" ++ url.text ++ ")"

def params (g : Given) : Except Failure (Option Json) :=
  match g.values.lookup "params" with
  | none => .ok none
  | some text =>
    match Json.parse text with
    | .ok v => .ok (some v)
    | .error e => .error ⟨"Invalid JSON in params: " ++ e.message text, []⟩

def address (g : Given) : String := g.positions.headD ""

def request (g : Given) (params : Option Json) : Rpc.Request where
  id := if g.switches.contains "notify" then none else some (.int 1)
  method := g.positions.getD 1 ""
  params
  contextVersion := g.value "context-version" "v1"

def post (g : Given) : Except Failure Post := do
  let params ← params g
  match Http.checkEndpoint "endpoint URL" (address g) with
  | .error fault => throw ⟨fault.message, []⟩
  | .ok () =>
    match Http.Url.parse (address g) with
    | .error fault => throw (sendFailure (address g) ["builder error", fault.message])
    | .ok url =>
      let session := g.values.lookup "session"
      if session.all Http.isHeaderValue then
        return { url, session, body := (request g params).encode }
      else throw (sendFailure (address g) ["builder error", "failed to parse header value"])

def outcome (body : Bytes) : Outcome :=
  if body.isEmpty then { code := 0 }
  else
    match Json.parse body with
    | .ok v => { code := 0, stdout := v.text ++ "\n" }
    | .error e => Failure.outcome ⟨"response is not JSON", [e.message body]⟩

end ScriptGate.Cli.Call
