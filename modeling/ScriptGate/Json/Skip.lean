import ScriptGate.Json.Token

/-!
# Passing over a value

A value that nobody asks for is only checked for its syntax: any depth, any number and any bytes in
a string pass. The open containers are kept in a list.
-/

namespace ScriptGate.Json

/-- A container that is open around the place being read. -/
inductive Bracket where
  | array
  | object
  deriving DecidableEq

def skipString : Bytes → Except SyntaxError Bytes
  | [] => fail .endInString []
  | 0x22 :: r => .ok r
  | 0x5C :: 0x75 :: a :: b :: c :: d :: r =>
    match hexQuad? a b c d with
    | some _ => skipString r
    | none => fail .badEscape r
  | 0x5C :: 0x75 :: _ => fail .endInString []
  | 0x5C :: [] => fail .endInString []
  | 0x5C :: e :: r =>
    match shortEscape? e with
    | some _ => skipString r
    | none => fail .badEscape r
  | b :: r => if b < 0x20 then fail .controlCharacter (b :: r) else skipString r

def skipExponent (s : Bytes) : Except SyntaxError Bytes :=
  let s := match s with
    | 0x2B :: r => r
    | 0x2D :: r => r
    | _ => s
  let (count, r) := skipDigits 0 s
  if count = 0 then fail .badNumber (r.drop 1) else .ok r

def skipAfterDigits : Bytes → Except SyntaxError Bytes
  | b :: r => if isExponentMark b then skipExponent r else .ok (b :: r)
  | [] => .ok []

def skipAfterInteger : Bytes → Except SyntaxError Bytes
  | 0x2E :: r =>
    let (count, r) := skipDigits 0 r
    if count = 0 then failOn .badNumber r else skipAfterDigits r
  | s => skipAfterDigits s

def skipNumber (s : Bytes) : Except SyntaxError Bytes :=
  let s := match s with
    | 0x2D :: r => r
    | _ => s
  match s with
  | [] => fail .endInValue []
  | b :: r =>
    if b = 0x30 then
      match r with
      | c :: _ => if isDigit c then failOn .badNumber r else skipAfterInteger r
      | [] => .ok []
    else if isDigit b then skipAfterInteger (skipDigits 0 r).2
    else fail .badNumber r

/-- Passes over a value that holds no other. -/
def skipScalar (b : UInt8) (r : Bytes) : Except SyntaxError Bytes :=
  if b = 0x6E then expect [0x75, 0x6C, 0x6C] r
  else if b = 0x74 then expect [0x72, 0x75, 0x65] r
  else if b = 0x66 then expect [0x61, 0x6C, 0x73, 0x65] r
  else if b = 0x22 then skipString r
  else if b = 0x2D ∨ isDigit b then skipNumber (b :: r)
  else failOn .noValue (b :: r)

mutual

/-- Passes over a value and then over what closes the open containers. -/
def skipValue (fuel : Nat) (open_ : List Bracket) (s : Bytes) : Except SyntaxError Bytes :=
  match fuel with
  | 0 => fail .endInValue []
  | fuel + 1 =>
    match skipBlank s with
    | [] => fail .endInValue []
    | b :: r =>
      if b = 0x5B then
        match skipBlank r with
        | [] => fail .endInArray []
        | c :: r =>
          if c = 0x5D then skipRest fuel open_ r
          else skipValue fuel (.array :: open_) (c :: r)
      else if b = 0x7B then
        match skipBlank r with
        | [] => fail .endInObject []
        | c :: r =>
          if c = 0x7D then skipRest fuel open_ r
          else skipKey fuel (.object :: open_) (c :: r)
      else
        match skipScalar b r with
        | .ok r => skipRest fuel open_ r
        | .error e => .error e

def skipKey (fuel : Nat) (open_ : List Bracket) (s : Bytes) : Except SyntaxError Bytes :=
  match fuel with
  | 0 => fail .endInObject []
  | fuel + 1 =>
    match skipBlank s with
    | [] => fail .endInObject []
    | 0x22 :: r =>
      match skipString r with
      | .error e => .error e
      | .ok r =>
        match skipBlank r with
        | [] => fail .endInObject []
        | c :: r =>
          if c = 0x3A then skipValue fuel open_ r
          else failOn .noColon (c :: r)
    | s => failOn .keyNotString s

def skipRest (fuel : Nat) (open_ : List Bracket) (s : Bytes) : Except SyntaxError Bytes :=
  match fuel with
  | 0 => fail .endInValue []
  | fuel + 1 =>
    match open_ with
    | [] => .ok s
    | .array :: outer =>
      match skipBlank s with
      | [] => fail .endInArray []
      | b :: r =>
        if b = 0x2C then skipValue fuel open_ r
        else if b = 0x5D then skipRest fuel outer r
        else failOn .noArrayEnd (b :: r)
    | .object :: outer =>
      match skipBlank s with
      | [] => fail .endInObject []
      | b :: r =>
        if b = 0x2C then skipKey fuel open_ r
        else if b = 0x7D then skipRest fuel outer r
        else failOn .noObjectEnd (b :: r)

end

end ScriptGate.Json
