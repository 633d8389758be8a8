import ScriptGate.Bytes
import ScriptGate.Password.Fraction

/-!
# A cipher with an expensive key

A block is two words. Sixteen rounds mix one half, by four tables, into the other. The tables and
the round keys depend on a key and a salt, and setting them up takes as many passes as one likes.
-/

namespace ScriptGate.Password

/-- The state of a cipher: eighteen round keys, and four tables of 256 words, one after the other.
-/
structure Cipher where
  keys : Array UInt32
  boxes : Array UInt32

structure Block where
  left : UInt32
  right : UInt32

namespace Cipher

def initial : Cipher where
  keys := fractionWords.extract 0 18
  boxes := fractionWords.extract 18 wordCount

/-- What a round makes of one half. -/
def mix (boxes : Array UInt32) (x : UInt32) : UInt32 :=
  let box (table : Nat) (shift : UInt32) : UInt32 :=
    boxes.getD (256 * table + ((x >>> shift) &&& 0xFF).toNat) 0
  ((box 0 24 + box 1 16) ^^^ box 2 8) + box 3 0

def rounds (c : Cipher) : (n i : Nat) → Block → Block
  | 0, _, b => b
  | n + 1, i, b =>
    let left := b.left ^^^ c.keys.getD i 0
    rounds c n (i + 1) ⟨b.right ^^^ mix c.boxes left, left⟩

def encipher (c : Cipher) (b : Block) : Block :=
  let b := rounds c 16 0 b
  ⟨b.right ^^^ c.keys.getD 17 0, b.left ^^^ c.keys.getD 16 0⟩

def repeated (c : Cipher) : (n : Nat) → Block → Block
  | 0, b => b
  | n + 1, b => repeated c n (c.encipher b)

def cyclic (ws : Array UInt32) (i : Nat) : UInt32 := ws.getD (i % ws.size) 0

def addKey (c : Cipher) (key : Array UInt32) : Cipher :=
  { c with keys := c.keys.mapIdx fun i k => k ^^^ cyclic key i }

/-- Fills the round keys, `n` pairs from place `i` on, with enciphered salt. -/
def fillKeys (salt : Array UInt32) : (n i : Nat) → Cipher → Block → Cipher × Block
  | 0, _, c, b => (c, b)
  | n + 1, i, c, b =>
    let b := c.encipher ⟨b.left ^^^ cyclic salt i, b.right ^^^ cyclic salt (i + 1)⟩
    fillKeys salt n (i + 2)
      { c with keys := (c.keys.setIfInBounds i b.left).setIfInBounds (i + 1) b.right } b

def fillBoxes (salt : Array UInt32) : (n i : Nat) → Cipher → Block → Cipher
  | 0, _, c, _ => c
  | n + 1, i, c, b =>
    let b := c.encipher ⟨b.left ^^^ cyclic salt (18 + i), b.right ^^^ cyclic salt (19 + i)⟩
    fillBoxes salt n (i + 2)
      { c with boxes := (c.boxes.setIfInBounds i b.left).setIfInBounds (i + 1) b.right } b

/-- One pass of the setup with a key and a salt. -/
def expand (c : Cipher) (salt key : Array UInt32) : Cipher :=
  let (c, b) := fillKeys salt 9 0 (c.addKey key) ⟨0, 0⟩
  fillBoxes salt 512 0 c b

def noSalt : Array UInt32 := #[0]

/-- `n` times a pass with the key and one with the salt as the key. -/
def stretch (salt key : Array UInt32) : (n : Nat) → Cipher → Cipher
  | 0, c => c
  | n + 1, c => stretch salt key n ((c.expand noSalt key).expand noSalt salt)

/-- The state for a key and a salt, with `2 ^ cost` double passes. -/
def ofKey (cost : Nat) (salt key : Array UInt32) : Cipher :=
  stretch salt key (1 <<< cost) (initial.expand salt key)

end Cipher

end ScriptGate.Password
