import ScriptGate.Bytes
import ScriptGate.Json.Basic
import ScriptGate.Decimal.Shortest
import ScriptGate.Text.Utf8

/-!
# JSON text

The compact text of a value: no blanks, members in key order, only the quote, the backslash and the
control characters escaped, and the shortest digits for a double.
-/

namespace ScriptGate.Json

/-- Doubles are positional from `0.00001` to sixteen digits before the point and always show that
they are not integers. -/
def floatStyle : Decimal.Style where
  positional e := decide (-5 ≤ e ∧ e ≤ 15)
  pointZero := true
  exponentDigits := 1

def floatText (x : Binary64) : String := floatStyle.write x.isNegative (Decimal.shortest x)

def intText (i : Int) : String := toString i

def escapeByte (b : UInt8) : Bytes :=
  if b = 0x22 then [0x5C, 0x22]
  else if b = 0x5C then [0x5C, 0x5C]
  else if b = 0x08 then [0x5C, 0x62]
  else if b = 0x09 then [0x5C, 0x74]
  else if b = 0x0A then [0x5C, 0x6E]
  else if b = 0x0C then [0x5C, 0x66]
  else if b = 0x0D then [0x5C, 0x72]
  else if b < 0x20 then
    [0x5C, 0x75, 0x30, 0x30] ++
      [UInt8.ofNat (Bytes.hexDigit (b.toNat / 16)).toNat,
        UInt8.ofNat (Bytes.hexDigit (b.toNat % 16)).toNat]
  else [b]

def quoted (s : String) : Bytes := 0x22 :: ((Bytes.ofString s).flatMap escapeByte ++ [0x22])

def Number.encode : Number → Bytes
  | .int i _ => intText i
  | .float x _ => floatText x

mutual

def encode : Json → Bytes
  | .null => "null"
  | .bool true => "true"
  | .bool false => "false"
  | .num n => n.encode
  | .str s => quoted s
  | .arr items => 0x5B :: (encodeItems items ++ [0x5D])
  | .obj members => 0x7B :: (encodeMembers members ++ [0x7D])

def encodeItems : List Json → Bytes
  | [] => []
  | [x] => encode x
  | x :: y :: rest => encode x ++ 0x2C :: encodeItems (y :: rest)

def encodeMembers : List (String × Json) → Bytes
  | [] => []
  | [(k, x)] => quoted k ++ 0x3A :: encode x
  | (k, x) :: m :: rest => quoted k ++ 0x3A :: (encode x ++ 0x2C :: encodeMembers (m :: rest))

end

def text (v : Json) : String := Utf8.lossy v.encode

def encodeRecord (members : List (String × Bytes)) : Bytes :=
  let parts := members.map fun (k, v) => quoted k ++ 0x3A :: v
  0x7B :: (List.intercalate [0x2C] parts ++ [0x7D])

end ScriptGate.Json
