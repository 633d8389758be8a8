import ScriptGate.Bytes

/-!
# Random identifiers

Sixteen random bytes make an identifier of version 4: six of its bits are fixed, and its text has
five groups of hexadecimal digits with dashes between them.
-/

namespace ScriptGate.Uuid

/-- The bytes of an identifier: random ones but for the version and the variant. -/
def version4 (random : Bytes) : Bytes :=
  random.mapIdx fun i b =>
    if i = 6 then (b &&& 0x0F) ||| 0x40 else if i = 8 then (b &&& 0x3F) ||| 0x80 else b

/-- How many bytes each group of the text shows. -/
def groupSizes : List Nat := [4, 2, 2, 2, 6]

def groups : List Nat → Bytes → List String
  | [], _ => []
  | n :: sizes, b => Bytes.toHex (b.take n) :: groups sizes (b.drop n)

def text (random : Bytes) : String := "-".intercalate (groups groupSizes (version4 random))

end ScriptGate.Uuid
