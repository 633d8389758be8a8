/-!
# Blank characters

The characters with the Unicode property White_Space, and the text between the blanks at its ends.
-/

namespace ScriptGate.Text

/-- The Unicode property White_Space. -/
def isBlank (c : Char) : Bool :=
  let n := c.toNat
  (0x09 ≤ n && n ≤ 0x0D) || n == 0x20 || n == 0x85 || n == 0xA0 || n == 0x1680 ||
    (0x2000 ≤ n && n ≤ 0x200A) || n == 0x2028 || n == 0x2029 || n == 0x202F || n == 0x205F ||
    n == 0x3000

def trimWhile {α : Type} (p : α → Bool) (xs : List α) : List α :=
  ((xs.dropWhile p).reverse.dropWhile p).reverse

def trim (s : String) : String := String.ofList (trimWhile isBlank s.toList)

def isAllBlank (s : String) : Bool := s.toList.all isBlank

end ScriptGate.Text
