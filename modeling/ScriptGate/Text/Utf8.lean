import ScriptGate.Bytes

/-!
# Lenient UTF-8

`Utf8.lossy` reads any bytes as text: each maximal ill-formed part becomes one U+FFFD, and
well-formed bytes are read as they are (`lossy_ofString`).
-/

namespace ScriptGate.Utf8

def replacement : Char := Char.ofNat 0xFFFD

/-- A character of which some bytes have been read: the range of the next byte, how many bytes are
still to come, and the bits collected so far. -/
structure Pending where
  low : UInt8
  high : UInt8
  left : Nat
  bits : Nat

def start (b : UInt8) : List Char × Option Pending :=
  if b < 0x80 then ([Char.ofNat b.toNat], none)
  else if b < 0xC2 then ([replacement], none)
  else if b < 0xE0 then ([], some ⟨0x80, 0xBF, 1, b.toNat % 32⟩)
  else if b < 0xF0 then
    let low := if b = 0xE0 then 0xA0 else 0x80
    let high := if b = 0xED then 0x9F else 0xBF
    ([], some ⟨low, high, 2, b.toNat % 16⟩)
  else if b < 0xF5 then
    let low := if b = 0xF0 then 0x90 else 0x80
    let high := if b = 0xF4 then 0x8F else 0xBF
    ([], some ⟨low, high, 3, b.toNat % 8⟩)
  else ([replacement], none)

/-- Reads one byte: the characters it completes, and what is pending after it. A byte outside the
pending range ends the ill-formed part and begins anew. -/
def feed : Option Pending → UInt8 → List Char × Option Pending
  | none, b => start b
  | some p, b =>
    if p.low ≤ b ∧ b ≤ p.high then
      let bits := p.bits * 64 + b.toNat % 64
      if p.left ≤ 1 then ([Char.ofNat bits], none)
      else ([], some ⟨0x80, 0xBF, p.left - 1, bits⟩)
    else
      let (cs, q) := start b
      (replacement :: cs, q)

def chars : Option Pending → Bytes → List Char
  | none, [] => []
  | some _, [] => [replacement]
  | p, b :: r =>
    let (cs, q) := feed p b
    cs ++ chars q r

/-- The text of any bytes, one U+FFFD for each maximal ill-formed part. -/
def lossy (b : Bytes) : String :=
  match b.toString? with
  | some s => s
  | none => String.ofList (chars none b)

theorem lossy_ofString (s : String) : lossy (Bytes.ofString s) = s := by
  simp [lossy, Bytes.toString?_ofString]

/-- Printable ASCII and the tab: what a header value may show. -/
def isVisibleByte (b : UInt8) : Bool := (0x20 ≤ b && b < 0x7F) || b == 0x09

def visible? (b : Bytes) : Option String :=
  if b.all isVisibleByte then some (String.ofList (b.map fun x => Char.ofNat x.toNat)) else none

end ScriptGate.Utf8
