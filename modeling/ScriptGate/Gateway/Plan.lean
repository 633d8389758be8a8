import ScriptGate.Backend
import ScriptGate.Http.Message
import ScriptGate.Rpc.Envelope

/-!
# Plans

What a body asks for, decided before any back-end starts. A body that cannot be read, is no envelope
or is an empty batch is refused as a whole. Each slot of any other body is refused, passed over or
handed to the back-end of its context version, and only a slot with an id gets an answer.
-/

namespace ScriptGate.Gateway

inductive Slot where
  /-- It gets this error and no back-end hears of it. -/
  | refused (id : Json) (error : Rpc.Error)
  /-- A faulty notification: no back-end hears of it and there is nobody to tell. -/
  | ignored
  /-- A back-end serves it and its response goes out. -/
  | call (id : Json) (request : Rpc.Request)
  /-- A back-end serves it and its response goes nowhere. -/
  | notification (request : Rpc.Request)
  deriving DecidableEq

namespace Slot

def fault (id : Option Json) (error : Rpc.Error) : Slot :=
  match id with
  | some id => .refused id error
  | none => .ignored

/-- What is done with a request, where `serves` tells the context versions that have a back-end. -/
def ofRequest (serves : String → Bool) (r : Rpc.Request) : Slot :=
  if r.jsonrpc ≠ Rpc.version then fault r.id .invalidRequest
  else if !serves r.contextVersion then fault r.id .invalidContextVersion
  else
    match r.id with
    | some id => .call id r
    | none => .notification r

def ofMember (serves : String → Bool) : Option Rpc.Request → Slot
  | some r => ofRequest serves r
  | none => .refused .null .invalidRequest

def request? : Slot → Option Rpc.Request
  | .call _ r | .notification r => some r
  | .refused _ _ | .ignored => none

/-- Whether the slot holds up the reply until its back-end has ended. -/
def isAwaited : Slot → Bool
  | .call _ _ => true
  | _ => false

/-- The response that goes out for a slot once its back-end, if it has one, has ended. A crash is
answered in its place. -/
def response? (ending : Option Ending) : Slot → Option Rpc.Response
  | .refused id error => some (.failure id error)
  | .call id _ => ending.map fun
    | .answered response => response
    | .crashed => .failure id .crashed
  | .ignored | .notification _ => none

end Slot

inductive Plan where
  /-- The body is refused with a status and an error without an id. -/
  | refused (status : Http.Status) (error : Rpc.Error)
  | single (slot : Slot)
  | batch (slots : List Slot)
  deriving DecidableEq

def Plan.ofEnvelope (serves : String → Bool) : Rpc.Envelope → Plan
  | .single r => .single (.ofRequest serves r)
  | .batch [] => .refused Http.ok .invalidRequest
  | .batch members => .batch (members.map (Slot.ofMember serves))

/-- The plan for a body, which is absent where it could not be read. -/
def Plan.ofBody (serves : String → Bool) : Option Bytes → Plan
  | none => .refused Http.badRequest .internalError
  | some body =>
    match Rpc.Envelope.parse body with
    | .error _ => .refused Http.badRequest .parseError
    | .ok envelope => .ofEnvelope serves envelope

def Plan.slots : Plan → List Slot
  | .refused _ _ => []
  | .single slot => [slot]
  | .batch slots => slots

/-! ### Replies -/

inductive Reply where
  | single (response : Rpc.Response)
  | batch (responses : List Rpc.Response)
  | empty
  deriving DecidableEq

namespace Reply

def responses : Reply → List Rpc.Response
  | .single r => [r]
  | .batch rs => rs
  | .empty => []

def encode : Reply → Bytes
  | .single r => r.encode
  | .batch rs => 0x5B :: (List.intercalate [0x2C] (rs.map Rpc.Response.encode) ++ [0x5D])
  | .empty => []

/-- A reply with a stamp on each response; `salt` gives each position its salt. -/
def stamp (node : String) (newSession : Option String) (salt : Nat → String) : Reply → Reply
  | .single r => .single (r.stamp node (salt 0) newSession)
  | .batch rs => .batch (rs.mapIdx fun i r => r.stamp node (salt i) newSession)
  | .empty => .empty

end Reply

/-- The reply to a plan whose slots have come to these endings. -/
def Plan.reply (endings : Nat → Option Ending) : Plan → Reply
  | .refused _ error => .single (.failure .null error)
  | .single slot =>
    match slot.response? (endings 0) with
    | some response => .single response
    | none => .empty
  | .batch slots => .batch (slots.zipIdx.filterMap fun (slot, i) => slot.response? (endings i))

def Plan.status : Plan → Http.Status
  | .refused status _ => status
  | .single _ | .batch _ => Http.ok

end ScriptGate.Gateway
