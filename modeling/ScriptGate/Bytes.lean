/-!
# Byte strings

Bodies, guest strings and digests are sequences of bytes. A `String` enters them through its
UTF-8 encoding and leaves them only when the bytes are valid UTF-8.
-/

namespace ScriptGate

abbrev Bytes := List UInt8

namespace Bytes

def ofString (s : String) : Bytes := s.toUTF8.data.toList

instance : Coe String Bytes := ⟨ofString⟩

/-- The text whose UTF-8 encoding these bytes are, when there is one. -/
def toString? (b : Bytes) : Option String := String.fromUTF8? ⟨b.toArray⟩

def hexDigit (n : Nat) : Char := if n < 10 then Char.ofNat (0x30 + n) else Char.ofNat (0x57 + n)

def toHex (b : Bytes) : String :=
  String.ofList (b.flatMap fun x => [hexDigit (x.toNat / 16), hexDigit (x.toNat % 16)])

/-- The value of a hexadecimal digit of either case. -/
def hexValue? (c : UInt8) : Option Nat :=
  if 0x30 ≤ c ∧ c ≤ 0x39 then some (c.toNat - 0x30)
  else if 0x61 ≤ c ∧ c ≤ 0x66 then some (c.toNat - 0x57)
  else if 0x41 ≤ c ∧ c ≤ 0x46 then some (c.toNat - 0x37)
  else none

def ofHex? : Bytes → Option Bytes
  | [] => some []
  | [_] => none
  | a :: b :: r => do
    let hi ← hexValue? a
    let lo ← hexValue? b
    let rest ← ofHex? r
    return UInt8.ofNat (16 * hi + lo) :: rest

def lt : Bytes → Bytes → Bool
  | _, [] => false
  | [], _ :: _ => true
  | a :: x, b :: y => if a < b then true else if b < a then false else lt x y

theorem toString?_ofString (s : String) : (ofString s).toString? = some s := by
  simp [toString?, ofString, String.fromUTF8?, s.isValidUTF8]
  rfl

end Bytes

end ScriptGate
