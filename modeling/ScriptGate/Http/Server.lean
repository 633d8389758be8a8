import ScriptGate.Gateway
import ScriptGate.Http.Message

/-!
# The server

One route takes bodies for the gateway. The session of a request is the one that its first session
header names, and a fresh one where that header is missing, blank or not visible. Every answer on
the route carries the session; a fresh one is also in the stamp of every response. Any other path is
not found.
-/

namespace ScriptGate.Http

/-- A request whose target has one of the forms that HTTP knows. The body is absent where the
connection failed before its end. -/
structure Request where
  method : String
  target : String
  headers : List HeaderLine
  body : Option Bytes

/-- What is drawn at random for a request: a session, and a salt for each response. -/
structure Draw where
  session : String
  salt : Nat → String

namespace Target

def isSchemeChar (c : Char) : Bool := c.isAlphanum || ['+', '-', '.'].contains c

def behindScheme? (target : List Char) : Option (List Char) :=
  match target.dropWhile isSchemeChar with
  | ':' :: '/' :: '/' :: rest => some rest
  | _ => none

/-- Whether a character ends the authority of a target. -/
def isEnd (c : Char) : Bool := c = '/' || c = '?' || c = '#'

/-- What is in front of a query or a fragment. -/
def pathOf (target : List Char) : List Char := target.takeWhile fun c => c ≠ '?' && c ≠ '#'

/-- The path of a target. Behind a scheme and an authority it is never empty; a target that is
nothing but an authority has none. -/
def path (target : List Char) : List Char :=
  match target with
  | '/' :: _ | ['*'] => pathOf target
  | _ =>
    match behindScheme? target with
    | some rest =>
      match pathOf (rest.dropWhile (!isEnd ·)) with
      | [] => ['/']
      | path => path
    | none => []

end Target

def Request.path (r : Request) : String := String.ofList (Target.path r.target.toList)

def Request.session? (r : Request) : Option String :=
  ((r.headers.find? fun h => Caller.lower h.name = sessionHeader).bind fun h =>
    (Utf8.visible? h.value).map Text.trim).filter (· ≠ "")

def Request.caller (r : Request) (peer : Option Net.SocketAddress) (fresh : String) : Caller where
  session := r.session?.getD fresh
  minted := r.session?.isNone
  peer
  headers := r.headers

structure Server (σ : Type) where
  gateway : Gateway σ
  route : String
  /-- The greatest number of bytes in a body. -/
  maxBody : Nat

namespace Server

def ofConfig {σ : Type} (c : Config) (backends : List (String × Backend σ)) : Server σ where
  gateway := ⟨c.nodeId, c.sessionTtl, backends⟩
  route := c.route
  maxBody := c.maxBody

/-- An answer with an error that no exchange has produced. -/
def refusal (status : Status) (error : Rpc.Error) (node : String) (caller : Caller) (d : Draw) :
    Answer :=
  let newSession := if caller.minted then some caller.session else none
  .of status ((Rpc.Response.failure .null error).stamp node (d.salt 0) newSession).encode
    (some caller.session)

def handle {σ : Type} (v : Server σ) (s : Gateway.State σ) (r : Request)
    (peer : Option Net.SocketAddress) (now : Time.Instant) (d : Draw) :
    Answer × Gateway.State σ :=
  if r.path ≠ v.route then (.of notFound [] none, s)
  else
    let caller := r.caller peer d.session
    if r.method ≠ "POST" then
      (refusal methodNotAllowed .invalidRequest v.gateway.node caller d, s)
    else
      let s := v.gateway.handle s caller (r.body.filter fun b => b.length ≤ v.maxBody) now d.salt
      match s.traffic.exchanges.getLast?.bind Gateway.Exchange.outcome? with
      | some (status, reply) => (.of status reply.encode (some caller.session), s)
      | none => (refusal internalServerError .internalError v.gateway.node caller d, s)

end Server

end ScriptGate.Http
