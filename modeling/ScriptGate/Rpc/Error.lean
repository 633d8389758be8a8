import ScriptGate.Json.Printer
import ScriptGate.Json.Record
import ScriptGate.Word

/-!
# Error objects

A code of thirty-two bits, a message and optional data. The standard errors have fixed codes and
messages.
-/

namespace ScriptGate.Rpc

def IsCode (i : Int) : Prop := Word.IsSigned32 i

instance (i : Int) : Decidable (IsCode i) := inferInstanceAs (Decidable (Word.IsSigned32 i))

structure Error where
  code : Int
  message : String
  data : Option Json := none
  isCode : IsCode code := by decide
  deriving DecidableEq

namespace Error

def parseError : Error := ⟨-32700, "Parse error", none, by decide⟩
def invalidRequest : Error := ⟨-32600, "Invalid Request", none, by decide⟩
def methodNotFound : Error := ⟨-32601, "Method not found", none, by decide⟩
def invalidParams : Error := ⟨-32602, "Invalid params", none, by decide⟩
def internalError : Error := ⟨-32603, "Internal error", none, by decide⟩
def crashed : Error := ⟨-32603, "Internal server error (panic)", none, by decide⟩
def invalidContextVersion : Error := ⟨-32010, "Invalid context version", none, by decide⟩
def invalidMethodFormat : Error := ⟨-32020, "Invalid method format", none, by decide⟩
def methodMissing : Error := ⟨-32021, "Method is missing", none, by decide⟩
def sessionBusy : Error := ⟨-32030, "The session is busy", none, by decide⟩

def withData (e : Error) (data : Json) : Error := { e with data := some data }

/-- The error as a value, its members in key order. -/
def toJson (e : Error) : Json :=
  .obj ([("code", .int e.code)] ++ (e.data.map (("data", ·))).toList ++
    [("message", .str e.message)])

/-- The error as text, its members in declaration order. -/
def encode (e : Error) : Bytes :=
  Json.encodeRecord
    ([("code", (Json.int e.code).encode), ("message", Json.quoted e.message)] ++
      (e.data.map fun d => ("data", d.encode)).toList)

/-- The members read so far; data that is null counts as read and absent. -/
structure Draft where
  code : Option { i : Int // IsCode i } := none
  message : Option String := none
  data : Option (Option Json) := none

open Json in
def fields : List (Json.Field Draft) := [
  { name := "code", seen := (·.code.isSome),
    read := fun _ _ st s =>
      match integerValue Word.least32 Word.greatest32 s with
      | .ok (i, r) =>
        if h : IsCode i then .ok ({ st with code := some ⟨i, h⟩ }, r) else fail .otherType r
      | .error e => .error e },
  { name := "message", seen := (·.message.isSome),
    read := fun _ _ st s => (stringValue s).map fun (x, r) => ({ st with message := some x }, r) },
  { name := "data", seen := (·.data.isSome),
    read := fun fuel depth st s =>
      (optional (value fuel depth) s).map fun (x, r) => ({ st with data := some x }, r) }]

def read (fuel depth : Nat) (s : Bytes) : Json.Parsed Error :=
  match Json.record fields fuel depth {} s with
  | .error e => .error e
  | .ok (st, r) =>
    match st.code, st.message with
    | some ⟨code, h⟩, some message => .ok (⟨code, message, st.data.join, h⟩, r)
    | _, _ => Json.fail .missingMember r

end Error

end ScriptGate.Rpc
