import ScriptGate.Decimal.Unsigned
import ScriptGate.Digest.Sha256
import ScriptGate.Password.Cipher
import ScriptGate.Text.Base64Url
import ScriptGate.Text.Split
import ScriptGate.Word

/-!
# Password hashes

A hash text names its scheme, its cost, its salt and the digest of the password under them. The
digest is a fixed text enciphered many times with a cipher that the password has set up. A password
counts with a zero byte behind it, and only its first seventy-two bytes count.
-/

namespace ScriptGate.Password

/-- The costs that there are. -/
def leastCost : Nat := 4
def greatestCost : Nat := 31

def scheme : String := "2b"

def schemes : List String := ["2y", "2b", "2a", "2x"]

/-- How many bytes of a password count. -/
def keySize : Nat := 72

def keyBytes (password : Bytes) : Bytes := (password ++ [0]).take keySize

/-- The words of bytes that go on and on, from the first byte on, `n` of them. -/
def cyclicWords (n : Nat) (s : Bytes) : Array UInt32 :=
  let bytes := s.toArray
  let byte (i : Nat) : UInt8 := bytes.getD (i % bytes.size) 0
  ((List.range n).map fun i =>
    Sha256.wordOf (byte (4 * i)) (byte (4 * i + 1)) (byte (4 * i + 2)) (byte (4 * i + 3))).toArray

/-- The text that is enciphered. -/
def plain : List Block :=
  [⟨0x4F727068, 0x65616E42⟩, ⟨0x65686F6C, 0x64657253⟩, ⟨0x63727944, 0x6F756274⟩]

def digest (cost : Nat) (salt password : Bytes) : Bytes :=
  let c := Cipher.ofKey cost (cyclicWords 4 salt) (cyclicWords 18 (keyBytes password))
  let words := (plain.map (c.repeated 64)).flatMap fun b => [b.left, b.right]
  (words.flatMap Sha256.bytesOf).take 23

/-! ### Texts -/

def digitValue? (b : UInt8) : Option Nat :=
  if b = 0x2E then some 0
  else if b = 0x2F then some 1
  else if 0x41 ≤ b ∧ b ≤ 0x5A then some (b.toNat - 0x41 + 2)
  else if 0x61 ≤ b ∧ b ≤ 0x7A then some (b.toNat - 0x61 + 28)
  else if 0x30 ≤ b ∧ b ≤ 0x39 then some (b.toNat - 0x30 + 54)
  else none

def digitOf (n : Nat) : UInt8 :=
  if n = 0 then 0x2E
  else if n = 1 then 0x2F
  else if n < 28 then UInt8.ofNat (0x41 + n - 2)
  else if n < 54 then UInt8.ofNat (0x61 + n - 28)
  else UInt8.ofNat (0x30 + n - 54)

def encode (s : Bytes) : Bytes :=
  (Base64Url.encode s).map fun b => digitOf ((Base64Url.value? b).getD 0)

def decode? (s : Bytes) : Option Bytes :=
  (s.mapM fun b => (digitValue? b).map Base64Url.digit).bind Base64Url.decode?

def costText (cost : Nat) : String := (if cost < 10 then "0" else "") ++ toString cost

def hash (password : Bytes) (cost : Nat) (salt : Bytes) : Bytes :=
  Bytes.ofString ("$" ++ scheme ++ "$" ++ costText cost ++ "$") ++ encode salt ++
    encode (digest cost salt password)

structure Parts where
  cost : Nat
  salt : Bytes
  digest : Bytes

def Parts.ofText? (s : String) : Option Parts :=
  match (Text.split '$' s).filter (· ≠ "") with
  | [name, cost, rest] => do
    let cost ← (Decimal.unsigned Word.count32 cost).toOption
    let rest := Bytes.ofString rest
    if !schemes.contains name || rest.length ≠ 53 then none
    else if cost < leastCost ∨ greatestCost < cost then none
    else
      let salt ← decode? (rest.take 22)
      let digest ← decode? (rest.drop 22)
      return { cost, salt, digest }
  | _ => none

/-- Whether a password is that of a hash text. A text that is none fits no password. -/
def compare (text : String) (password : Bytes) : Bool :=
  match Parts.ofText? text with
  | some p => p.digest == digest p.cost p.salt password
  | none => false

end ScriptGate.Password
