import ScriptGate.Json.Printer
import ScriptGate.Json.Record

/-!
# Requests

A call of a method. The version tag selects the protocol and the context version the back-end; a
request without an id is a notification. A null id or null params count as absent in a text.
-/

namespace ScriptGate.Rpc

def version : String := "2.0"

structure Request where
  jsonrpc : String := version
  id : Option Json := none
  method : String := ""
  params : Option Json := none
  contextVersion : String := ""
  deriving DecidableEq

namespace Request

/-- A request without an id gets no response. -/
def isNotification (r : Request) : Bool := r.id.isNone

/-- The text of a request, absent members left out. -/
def encode (r : Request) : Bytes :=
  Json.encodeRecord
    ([("jsonrpc", Json.quoted r.jsonrpc)] ++ (r.id.map fun v => ("id", v.encode)).toList ++
      [("method", Json.quoted r.method)] ++ (r.params.map fun v => ("params", v.encode)).toList ++
      [("context-version", Json.quoted r.contextVersion)])

structure Draft where
  jsonrpc : Option String := none
  id : Option (Option Json) := none
  method : Option String := none
  params : Option (Option Json) := none
  contextVersion : Option String := none

/-- The request of the members read; a missing string is empty. -/
def Draft.toRequest (d : Draft) : Request where
  jsonrpc := d.jsonrpc.getD ""
  id := d.id.join
  method := d.method.getD ""
  params := d.params.join
  contextVersion := d.contextVersion.getD ""

open Json in
def fields : List (Json.Field Draft) := [
  { name := "jsonrpc", seen := (·.jsonrpc.isSome),
    read := fun _ _ st s => (stringValue s).map fun (x, r) => ({ st with jsonrpc := some x }, r) },
  { name := "id", seen := (·.id.isSome),
    read := fun fuel depth st s =>
      (optional (value fuel depth) s).map fun (x, r) => ({ st with id := some x }, r) },
  { name := "method", seen := (·.method.isSome),
    read := fun _ _ st s => (stringValue s).map fun (x, r) => ({ st with method := some x }, r) },
  { name := "params", seen := (·.params.isSome),
    read := fun fuel depth st s =>
      (optional (value fuel depth) s).map fun (x, r) => ({ st with params := some x }, r) },
  { name := "context-version", seen := (·.contextVersion.isSome),
    read := fun _ _ st s =>
      (stringValue s).map fun (x, r) => ({ st with contextVersion := some x }, r) }]

/-- Reads a whole text as one request, in object or in array form. -/
def decode (s : Bytes) : Except Json.SyntaxError Request :=
  match Json.record fields (Json.fuelFor s) Json.maxDepth {} s with
  | .ok (st, r) => Json.finish st.toRequest r
  | .error e => .error e

/-- A member that holds a string, empty when missing. -/
def stringMember? (key : String) (members : List (String × Json)) : Option String :=
  match Json.find? key members with
  | none => some ""
  | some (.str s) => some s
  | some _ => none

/-- A member of any kind, absent when null. -/
def valueMember (key : String) (members : List (String × Json)) : Option Json :=
  match Json.find? key members with
  | none | some .null => none
  | some v => some v

/-- The request that a value writes as an object, if its members have the right types. -/
def ofJson? : Json → Option Request
  | .obj members => do
    let jsonrpc ← stringMember? "jsonrpc" members
    let method ← stringMember? "method" members
    let contextVersion ← stringMember? "context-version" members
    return {
      jsonrpc, method, contextVersion
      id := valueMember "id" members
      params := valueMember "params" members }
  | _ => none

end Request

end ScriptGate.Rpc
