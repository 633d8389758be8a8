import ScriptGate.Rpc.Request

/-!
# Envelopes

A body is a batch when it is an array of values and a single request otherwise. A slot of a batch
that is no request object is kept as invalid.
-/

namespace ScriptGate.Rpc

inductive Envelope where
  | single (request : Request)
  /-- The slots in order; nothing where a slot holds no request. -/
  | batch (slots : List (Option Request))
  deriving DecidableEq

/-- Reads a body, first as an array of values and then as one request. -/
def Envelope.parse (body : Bytes) : Except Json.SyntaxError Envelope :=
  match Json.parse body with
  | .ok (.arr items) => .ok (.batch (items.map Request.ofJson?))
  | _ => (Request.decode body).map .single

end ScriptGate.Rpc
