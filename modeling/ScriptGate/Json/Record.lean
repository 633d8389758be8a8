import ScriptGate.Json.Parser
import ScriptGate.Json.Skip

/-!
# Records in JSON text

A record with fixed members is written as an object or as an array of its members in declaration
order. In an object a known member may stand once only and unknown members are passed over; in an
array members at the end may be missing.
-/

namespace ScriptGate.Json

/-- A member of a record whose parts are gathered in `σ`. -/
structure Field (σ : Type) where
  name : String
  /-- Whether the member has been read. -/
  seen : σ → Bool
  /-- Reads the value of the member, in which `depth` containers may nest. -/
  read : (fuel depth : Nat) → σ → Bytes → Parsed σ

mutual

def recordMembers {σ : Type} (fields : List (Field σ)) (fuel depth : Nat) (first : Bool) (st : σ)
    (s : Bytes) : Parsed σ :=
  match fuel with
  | 0 => fail .endInObject []
  | fuel + 1 =>
    match skipBlank s with
    | [] => fail .endInObject []
    | b :: r =>
      if b = 0x7D then .ok (st, r)
      else if first then recordMember fields fuel depth st (b :: r)
      else if b = 0x2C then
        match skipBlank r with
        | [] => fail .endInValue []
        | c :: r =>
          if c = 0x7D then failOn .trailingComma (c :: r)
          else recordMember fields fuel depth st (c :: r)
      else failOn .noObjectEnd (b :: r)

def recordMember {σ : Type} (fields : List (Field σ)) (fuel depth : Nat) (st : σ) (s : Bytes) :
    Parsed σ :=
  match fuel with
  | 0 => fail .endInObject []
  | fuel + 1 =>
    match s with
    | 0x22 :: r =>
      match string r with
      | .error e => .error e
      | .ok (k, r) =>
        match fields.find? (·.name = k) with
        | some f =>
          if f.seen st then fail .duplicateMember r
          else
            match skipBlank r with
            | [] => fail .endInObject []
            | c :: r =>
              if c = 0x3A then
                match f.read fuel depth st r with
                | .ok (st, r) => recordMembers fields fuel depth false st r
                | .error e => .error e
              else failOn .noColon (c :: r)
        | none =>
          match skipBlank r with
          | [] => fail .endInObject []
          | c :: r =>
            if c = 0x3A then
              match skipValue (2 * fuel + 2) [] r with
              | .ok r => recordMembers fields fuel depth false st r
              | .error e => .error e
            else failOn .noColon (c :: r)
    | _ => failOn .keyNotString s

end

def recordItems {σ : Type} (fuel depth : Nat) (first : Bool) (st : σ) (s : Bytes) :
    List (Field σ) → Parsed σ
  | [] =>
    match skipBlank s with
    | [] => fail .endInArray []
    | b :: r =>
      if b = 0x5D then .ok (st, r)
      else if b = 0x2C then
        match skipBlank r with
        | 0x5D :: r => failOn .trailingComma (0x5D :: r)
        | r => failOn .trailing r
      else failOn .trailing (b :: r)
  | f :: fields =>
    match skipBlank s with
    | [] => fail .endInArray []
    | b :: r =>
      if b = 0x5D then .ok (st, r)
      else
        let item : Except SyntaxError Bytes :=
          if first then .ok (b :: r)
          else if b = 0x2C then
            match skipBlank r with
            | [] => fail .endInValue []
            | c :: r => if c = 0x5D then failOn .trailingComma (c :: r) else .ok (c :: r)
          else failOn .noArrayEnd (b :: r)
        match item with
        | .error e => .error e
        | .ok s =>
          match f.read fuel depth st s with
          | .ok (st, r) => recordItems fuel depth false st r fields
          | .error e => .error e

def record {σ : Type} (fields : List (Field σ)) (fuel depth : Nat) (st : σ) (s : Bytes) :
    Parsed σ :=
  match skipBlank s with
  | [] => fail .endInValue []
  | b :: r =>
    if b = 0x7B then
      match depth with
      | 0 => failOn .tooDeep (b :: r)
      | depth + 1 => recordMembers fields fuel depth true st r
    else if b = 0x5B then
      match depth with
      | 0 => failOn .tooDeep (b :: r)
      | depth + 1 => recordItems fuel depth true st r fields
    else failOn .otherType (b :: r)

def stringValue (s : Bytes) : Parsed String :=
  match skipBlank s with
  | [] => fail .endInValue []
  | 0x22 :: r => string r
  | s => failOn .otherType s

def optional {α : Type} (read : Bytes → Parsed α) (s : Bytes) : Parsed (Option α) :=
  match skipBlank s with
  | 0x6E :: r => (expect [0x75, 0x6C, 0x6C] r).map (none, ·)
  | s =>
    match read s with
    | .ok (x, r) => .ok (some x, r)
    | .error e => .error e

def integerValue (low high : Int) (s : Bytes) : Parsed Int :=
  match skipBlank s with
  | [] => fail .endInValue []
  | b :: r =>
    if b = 0x2D ∨ isDigit b then
      match number (b :: r) with
      | .ok (.int i _, r) => if low ≤ i ∧ i ≤ high then .ok (i, r) else fail .otherType r
      | .ok (.float _ _, r) => fail .otherType r
      | .error e => .error e
    else failOn .otherType (b :: r)

end ScriptGate.Json
