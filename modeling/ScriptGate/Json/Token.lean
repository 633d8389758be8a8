import ScriptGate.Json.Basic
import ScriptGate.Json.Fault
import ScriptGate.Word

/-!
# Tokens of JSON text

Blanks, words, strings and numbers. A number without fraction or exponent that fits sixty-four bits
is exact. Any other is read in two roundings: its leading digits that fit sixty-four bits become the
nearest double, and that is multiplied or divided by a power of ten.
-/

namespace ScriptGate.Json

def isBlankByte (b : UInt8) : Bool := b == 0x20 || b == 0x0A || b == 0x09 || b == 0x0D

def skipBlank : Bytes → Bytes
  | b :: r => if isBlankByte b then skipBlank r else b :: r
  | [] => []

def expect : Bytes → Bytes → Except SyntaxError Bytes
  | [], s => .ok s
  | _ :: _, [] => fail .endInValue []
  | w :: ws, b :: r => if b = w then expect ws r else fail .badWord r

/-! ### Strings -/

def hexQuad? (a b c d : UInt8) : Option Nat := do
  let a ← Bytes.hexValue? a
  let b ← Bytes.hexValue? b
  let c ← Bytes.hexValue? c
  let d ← Bytes.hexValue? d
  return ((a * 16 + b) * 16 + c) * 16 + d

def shortEscape? (b : UInt8) : Option UInt8 :=
  if b = 0x22 then some 0x22
  else if b = 0x5C then some 0x5C
  else if b = 0x2F then some 0x2F
  else if b = 0x62 then some 0x08
  else if b = 0x66 then some 0x0C
  else if b = 0x6E then some 0x0A
  else if b = 0x72 then some 0x0D
  else if b = 0x74 then some 0x09
  else none

/-- The first half of a pair that writes a code point above U+FFFF. -/
def isHighSurrogate (n : Nat) : Bool := 0xD800 ≤ n && n ≤ 0xDBFF

def isLowSurrogate (n : Nat) : Bool := 0xDC00 ≤ n && n ≤ 0xDFFF

/-- Reads the rest of a string up to its closing quote; `acc` holds the bytes so far, last first. -/
def stringBytes (acc : Bytes) : Bytes → Parsed Bytes
  | [] => fail .endInString []
  | 0x22 :: r => .ok (acc.reverse, r)
  | 0x5C :: [] => fail .endInString []
  | 0x5C :: 0x75 :: a :: b :: c :: d :: r =>
    match hexQuad? a b c d with
    | none => fail .badEscape r
    | some n =>
      if isLowSurrogate n then fail .loneSurrogate r
      else if isHighSurrogate n then
        match r with
        | 0x5C :: 0x75 :: e :: f :: g :: h :: r' =>
          match hexQuad? e f g h with
          | none => fail .badEscape r'
          | some l =>
            if isLowSurrogate l then
              let c := Char.ofNat ((n - 0xD800) * 0x400 + (l - 0xDC00) + 0x10000)
              stringBytes ((String.utf8EncodeChar c).reverse ++ acc) r'
            else fail .loneSurrogate r'
        | 0x5C :: 0x75 :: _ => fail .endInString []
        | [] | [0x5C] => fail .endInString []
        | 0x5C :: _ :: r' => fail .hexEscapeEnd r'
        | _ :: r' => fail .hexEscapeEnd r'
      else stringBytes ((String.utf8EncodeChar (Char.ofNat n)).reverse ++ acc) r
  | 0x5C :: 0x75 :: _ => fail .endInString []
  | 0x5C :: e :: r =>
    match shortEscape? e with
    | some b => stringBytes (b :: acc) r
    | none => fail .badEscape r
  | b :: r => if b < 0x20 then fail .controlCharacter r else stringBytes (b :: acc) r

/-- Reads the rest of a string, which has to be valid UTF-8. -/
def string (s : Bytes) : Parsed String :=
  match stringBytes [] s with
  | .error e => .error e
  | .ok (b, r) =>
    match b.toString? with
    | some t => .ok (t, r)
    | none => fail .badUnicode r

/-! ### Numbers -/

def isDigit (b : UInt8) : Bool := 0x30 ≤ b && b ≤ 0x39

/-- Adds digits to a significand as long as it fits sixty-four bits; gives their number too. -/
def takeDigits (significand count : Nat) : Bytes → Nat × Nat × Bytes
  | b :: r =>
    if isDigit b then
      let next := significand * 10 + (b.toNat - 0x30)
      if next < Word.count64 then takeDigits next (count + 1) r else (significand, count, b :: r)
    else (significand, count, b :: r)
  | [] => (significand, count, [])

def skipDigits (count : Nat) : Bytes → Nat × Bytes
  | b :: r => if isDigit b then skipDigits (count + 1) r else (count, b :: r)
  | [] => (count, [])

def powerOfTen (e : Nat) : Float := Float.ofScientific 1 false e

/-- `f · 10 ^ e` by one multiplication or by divisions, nothing where it is above every double. -/
def scaleFloat? (f : Float) (e : Int) : Option Float :=
  if e.natAbs ≤ 308 then
    if 0 ≤ e then
      let g := f * powerOfTen e.natAbs
      if g.isInf then none else some g
    else some (f / powerOfTen e.natAbs)
  else if f == 0 then some f
  else if 0 ≤ e then none
  else scaleFloat? (f / powerOfTen 308) (e + 308)
termination_by e.natAbs
decreasing_by omega

def float? (positive : Bool) (significand : Nat) (exponent : Int) : Option Json.Number := do
  let f ← scaleFloat? (UInt64.ofNat significand).toFloat exponent
  let x := Binary64.ofFloat (if positive then f else -f)
  if h : x.isFinite = true then return .float x h else none

def floatToken (positive : Bool) (significand : Nat) (exponent : Int) (r : Bytes) :
    Parsed Json.Number :=
  match float? positive significand exponent with
  | some n => .ok (n, r)
  | none => fail .numberRange r

/-- Reads exponent digits while the exponent fits thirty-one bits; the flag says that it did. -/
def exponentDigits (e : Nat) : Bytes → Nat × Bool × Bytes
  | b :: r =>
    if isDigit b then
      let next := e * 10 + (b.toNat - 0x30)
      if next ≤ 0x7FFFFFFF then exponentDigits next r else (e, false, r)
    else (e, true, b :: r)
  | [] => (e, true, [])

def exponent (positive : Bool) (significand : Nat) (start : Int) (s : Bytes) :
    Parsed Json.Number :=
  let (up, s) := match s with
    | 0x2B :: r => (true, r)
    | 0x2D :: r => (false, r)
    | _ => (true, s)
  match s with
  | [] => fail .endInValue []
  | b :: r =>
    if isDigit b then
      match exponentDigits (b.toNat - 0x30) r with
      | (e, true, r) => floatToken positive significand (if up then start + e else start - e) r
      | (_, false, r) =>
        if significand ≠ 0 ∧ up then fail .numberRange r
        else floatToken positive 0 0 (skipDigits 0 r).2
    else fail .badNumber r

def isExponentMark (b : UInt8) : Bool := b == 0x65 || b == 0x45

def afterDigits (positive : Bool) (significand : Nat) (start : Int) : Bytes → Parsed Json.Number
  | b :: r =>
    if isExponentMark b then exponent positive significand start r
    else floatToken positive significand start (b :: r)
  | [] => floatToken positive significand start []

def fraction (positive : Bool) (significand : Nat) (start : Int) (s : Bytes) : Parsed Json.Number :=
  let (significand, count, r) := takeDigits significand 0 s
  let (more, r) := skipDigits 0 r
  if count + more = 0 then
    match r with
    | [] => fail .endInValue []
    | _ :: _ => failOn .badNumber r
  else afterDigits positive significand (start - count) r

/-- An integer with its sign; what does not fit, and minus zero, is a double. -/
def integerToken (positive : Bool) (significand : Nat) (r : Bytes) : Parsed Json.Number :=
  let i : Int := if positive then significand else -significand
  if h : IsWord i ∧ (positive = true ∨ i ≠ 0) then .ok (.int i h.1, r)
  else floatToken positive significand 0 r

def afterInteger (positive : Bool) (significand : Nat) : Bytes → Parsed Json.Number
  | b :: r =>
    if b = 0x2E then fraction positive significand 0 r
    else if isExponentMark b then exponent positive significand 0 r
    else integerToken positive significand (b :: r)
  | [] => integerToken positive significand []

def unsigned (positive : Bool) : Bytes → Parsed Json.Number
  | [] => fail .endInValue []
  | b :: r =>
    if b = 0x30 then
      match r with
      | c :: _ => if isDigit c then failOn .badNumber r else afterInteger positive 0 r
      | [] => afterInteger positive 0 []
    else if isDigit b then
      let (significand, _, r) := takeDigits (b.toNat - 0x30) 1 r
      let (more, r) := skipDigits 0 r
      if more = 0 then afterInteger positive significand r
      else
        match r with
        | 0x2E :: r' => fraction positive significand more r'
        | _ => afterDigits positive significand more r
    else fail .badNumber r

def number : Bytes → Parsed Json.Number
  | 0x2D :: r => unsigned false r
  | s => unsigned true s

end ScriptGate.Json
