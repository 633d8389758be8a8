import ScriptGate.Digest.Sha256
import ScriptGate.Rpc.Error
import ScriptGate.Rpc.Request

/-!
# Responses

An answer carries the id of its call, a result or an error, and a stamp: the node that answered, a
salt, and the checksum of the answer. `verify` recomputes the checksum.
-/

namespace ScriptGate.Rpc

/-- The block that a node puts on its answers. -/
structure Stamp where
  responsibleNode : String
  salt : String
  checksum : String
  newSession : Option String := none
  deriving DecidableEq

/-- The answer to a call. A result that is null is present. -/
structure Response where
  jsonrpc : String := version
  id : Json := .null
  result : Option Json := none
  error : Option Error := none
  data : Option Stamp := none
  deriving DecidableEq

/-- The hexadecimal SHA-256 of the compact text of a value. -/
def checksum (v : Json) : String := Sha256.hexDigest v.encode

namespace Stamp

def encode (d : Stamp) : Bytes :=
  Json.encodeRecord
    ([("responsible-node", Json.quoted d.responsibleNode), ("salt", Json.quoted d.salt),
        ("checksum", Json.quoted d.checksum)] ++
      (d.newSession.map fun s => ("new-session-uuid", Json.quoted s)).toList)

structure Draft where
  responsibleNode : Option String := none
  salt : Option String := none
  checksum : Option String := none
  newSession : Option (Option String) := none

open Json in
def fields : List (Json.Field Draft) := [
  { name := "responsible-node", seen := (·.responsibleNode.isSome),
    read := fun _ _ st s =>
      (stringValue s).map fun (x, r) => ({ st with responsibleNode := some x }, r) },
  { name := "salt", seen := (·.salt.isSome),
    read := fun _ _ st s => (stringValue s).map fun (x, r) => ({ st with salt := some x }, r) },
  { name := "checksum", seen := (·.checksum.isSome),
    read := fun _ _ st s => (stringValue s).map fun (x, r) => ({ st with checksum := some x }, r) },
  { name := "new-session-uuid", seen := (·.newSession.isSome),
    read := fun _ _ st s =>
      (optional stringValue s).map fun (x, r) => ({ st with newSession := some x }, r) }]

def read (fuel depth : Nat) (s : Bytes) : Json.Parsed Stamp :=
  match Json.record fields fuel depth {} s with
  | .error e => .error e
  | .ok (st, r) =>
    match st.responsibleNode, st.salt, st.checksum with
    | some node, some salt, some sum => .ok (⟨node, salt, sum, st.newSession.join⟩, r)
    | _, _, _ => Json.fail .missingMember r

end Stamp

namespace Response

def success (id result : Json) : Response := { id, result := some result }

def failure (id : Json) (error : Error) : Response := { id, error := some error }

/-- What the checksum covers: the error as a value, else the result, else null. -/
def payload (r : Response) : Json :=
  match r.error, r.result with
  | some e, _ => e.toJson
  | none, some v => v
  | none, none => .null

def stamp (r : Response) (node salt : String) (newSession : Option String) : Response :=
  { r with data := some ⟨node, salt, checksum r.payload, newSession⟩ }

def verify (r : Response) : Bool :=
  match r.data with
  | some d => d.checksum == checksum r.payload
  | none => false

/-- The text of a response, absent members left out. -/
def encode (r : Response) : Bytes :=
  Json.encodeRecord
    ([("jsonrpc", Json.quoted r.jsonrpc), ("id", r.id.encode)] ++
      (r.result.map fun v => ("result", v.encode)).toList ++
      (r.error.map fun e => ("error", e.encode)).toList ++
      (r.data.map fun d => ("data", d.encode)).toList)

/-- The response as a value, its members in key order. -/
def toJson (r : Response) : Json :=
  let stamp (d : Stamp) : Json := .obj (
    [("checksum", .str d.checksum)] ++
      (d.newSession.map fun s => ("new-session-uuid", .str s)).toList ++
      [("responsible-node", .str d.responsibleNode), ("salt", .str d.salt)])
  .obj ((r.data.map fun d => ("data", stamp d)).toList ++
    (r.error.map fun e => ("error", e.toJson)).toList ++
    [("id", r.id), ("jsonrpc", .str r.jsonrpc)] ++ (r.result.map fun v => ("result", v)).toList)

structure Draft where
  jsonrpc : Option String := none
  id : Option Json := none
  result : Option Json := none
  error : Option (Option Error) := none
  data : Option (Option Stamp) := none

open Json in
def fields : List (Json.Field Draft) := [
  { name := "jsonrpc", seen := (·.jsonrpc.isSome),
    read := fun _ _ st s => (stringValue s).map fun (x, r) => ({ st with jsonrpc := some x }, r) },
  { name := "id", seen := (·.id.isSome),
    read := fun fuel depth st s =>
      (value fuel depth s).map fun (x, r) => ({ st with id := some x }, r) },
  { name := "result", seen := (·.result.isSome),
    read := fun fuel depth st s =>
      (value fuel depth s).map fun (x, r) => ({ st with result := some x }, r) },
  { name := "error", seen := (·.error.isSome),
    read := fun fuel depth st s =>
      (optional (Error.read fuel depth) s).map fun (x, r) => ({ st with error := some x }, r) },
  { name := "data", seen := (·.data.isSome),
    read := fun fuel depth st s =>
      (optional (Stamp.read fuel depth) s).map fun (x, r) => ({ st with data := some x }, r) }]

def decode (s : Bytes) : Except Json.SyntaxError Response :=
  match Json.record fields (Json.fuelFor s) Json.maxDepth {} s with
  | .error e => .error e
  | .ok (st, r) =>
    match st.jsonrpc with
    | some jsonrpc =>
      Json.finish ⟨jsonrpc, st.id.getD .null, st.result, st.error.join, st.data.join⟩ r
    | none => Json.fail .missingMember r

end Response

end ScriptGate.Rpc
