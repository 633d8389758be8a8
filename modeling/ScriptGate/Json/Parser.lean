import ScriptGate.Json.Token

/-!
# Reading JSON text

`parse` reads one value with nothing but blanks around it. At most `maxDepth` containers may nest.
Later members of an object replace earlier ones of the same key.
-/

namespace ScriptGate.Json

def maxDepth : Nat := 127

mutual

/-- Reads a value in which `depth` containers may nest. -/
def value (fuel depth : Nat) (s : Bytes) : Parsed Json :=
  match fuel with
  | 0 => fail .endInValue []
  | fuel + 1 =>
    match skipBlank s with
    | [] => fail .endInValue []
    | b :: r =>
      if b = 0x6E then (expect [0x75, 0x6C, 0x6C] r).map (.null, ·)
      else if b = 0x74 then (expect [0x72, 0x75, 0x65] r).map (.bool true, ·)
      else if b = 0x66 then (expect [0x61, 0x6C, 0x73, 0x65] r).map (.bool false, ·)
      else if b = 0x22 then
        match string r with
        | .ok (t, r) => .ok (.str t, r)
        | .error e => .error e
      else if b = 0x5B then
        match depth with
        | 0 => failOn .tooDeep (b :: r)
        | depth + 1 => items fuel depth true [] r
      else if b = 0x7B then
        match depth with
        | 0 => failOn .tooDeep (b :: r)
        | depth + 1 => members fuel depth true [] r
      else if b = 0x2D ∨ isDigit b then
        match number (b :: r) with
        | .ok (n, r) => .ok (.num n, r)
        | .error e => .error e
      else failOn .noValue (b :: r)

/-- Reads the items of an array up to its end; `acc` holds those so far, last first. -/
def items (fuel depth : Nat) (first : Bool) (acc : List Json) (s : Bytes) : Parsed Json :=
  match fuel with
  | 0 => fail .endInArray []
  | fuel + 1 =>
    match skipBlank s with
    | [] => fail .endInArray []
    | b :: r =>
      if b = 0x5D then .ok (.arr acc.reverse, r)
      else if first then
        match value fuel depth (b :: r) with
        | .ok (x, r) => items fuel depth false (x :: acc) r
        | .error e => .error e
      else if b = 0x2C then
        match skipBlank r with
        | [] => fail .endInValue []
        | c :: r =>
          if c = 0x5D then failOn .trailingComma (c :: r)
          else
            match value fuel depth (c :: r) with
            | .ok (x, r) => items fuel depth false (x :: acc) r
            | .error e => .error e
      else failOn .noArrayEnd (b :: r)

/-- Reads the members of an object up to its end; `acc` holds those so far, in key order. -/
def members (fuel depth : Nat) (first : Bool) (acc : List (String × Json)) (s : Bytes) :
    Parsed Json :=
  match fuel with
  | 0 => fail .endInObject []
  | fuel + 1 =>
    match skipBlank s with
    | [] => fail .endInObject []
    | b :: r =>
      if b = 0x7D then .ok (.obj acc, r)
      else if first then member fuel depth acc (b :: r)
      else if b = 0x2C then
        match skipBlank r with
        | [] => fail .endInValue []
        | c :: r =>
          if c = 0x7D then failOn .trailingComma (c :: r)
          else member fuel depth acc (c :: r)
      else failOn .noObjectEnd (b :: r)

/-- Reads one member, which begins with the quote of its key, and the members after it. -/
def member (fuel depth : Nat) (acc : List (String × Json)) (s : Bytes) : Parsed Json :=
  match fuel with
  | 0 => fail .endInObject []
  | fuel + 1 =>
    match s with
    | 0x22 :: r =>
      match string r with
      | .error e => .error e
      | .ok (k, r) =>
        match skipBlank r with
        | [] => fail .endInObject []
        | c :: r =>
          if c = 0x3A then
            match value fuel depth r with
            | .ok (x, r) => members fuel depth false (insert k x acc) r
            | .error e => .error e
          else failOn .noColon (c :: r)
    | _ => failOn .keyNotString s

end

/-- Fuel that no text of this length uses up. -/
def fuelFor (s : Bytes) : Nat := 2 * s.length + 2

def finish {α : Type} (x : α) (r : Bytes) : Except SyntaxError α :=
  match skipBlank r with
  | [] => .ok x
  | b :: r => failOn .trailing (b :: r)

def parse (s : Bytes) : Except SyntaxError Json :=
  match value (fuelFor s) maxDepth s with
  | .ok (x, r) => finish x r
  | .error e => .error e

end ScriptGate.Json
