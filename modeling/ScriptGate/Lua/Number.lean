import ScriptGate.Bytes
import ScriptGate.Decimal.Shortest
import ScriptGate.Word

/-!
# Numbers of the guest language

Integers of sixty-four bits that wrap around, doubles, and the texts of both. Operators that need
one kind convert where the value allows it.
-/

namespace ScriptGate.Lua

inductive Number where
  | int (i : Int64)
  | float (x : Binary64)
  deriving DecidableEq

namespace Number

/-! ### Texts -/

/-- Fourteen significant digits, positional for exponents from -4 to 13. -/
def floatStyle : Decimal.Style where
  positional e := decide (-4 ≤ e ∧ e < 14)
  pointZero := true
  exponentDigits := 2

def floatText (x : Binary64) : String :=
  if x.isNaN then (if x.isNegative then "-nan" else "nan")
  else if x.isInfinite then (if x.isNegative then "-inf" else "inf")
  else floatStyle.write x.isNegative (Decimal.rounded x 14)

def text : Number → String
  | .int i => toString i.toInt
  | .float x => floatText x

/-- Space, and the five control characters that count as space. -/
def isSpace (b : UInt8) : Bool := b == 0x20 || (0x09 ≤ b && b ≤ 0x0D)

def isDigit (b : UInt8) : Bool := 0x30 ≤ b && b ≤ 0x39

def takeDigits (hex : Bool) : Bytes → List Nat × Bytes
  | [] => ([], [])
  | b :: r =>
    match Bytes.hexValue? b with
    | some d =>
      if hex || isDigit b then
        let (ds, rest) := takeDigits hex r
        (d :: ds, rest)
      else ([], b :: r)
    | none => ([], b :: r)

def ofDigits (base : Nat) (ds : List Nat) : Nat := ds.foldl (fun n d => n * base + d) 0

def takeSign : Bytes → Bool × Bytes
  | 0x2D :: r => (true, r)
  | 0x2B :: r => (false, r)
  | s => (false, s)

def takeExponent (lower upper : UInt8) (s : Bytes) : Option (Int × Bytes) :=
  match s with
  | b :: r =>
    if b = lower ∨ b = upper then
      let (negative, r) := takeSign r
      let (ds, rest) := takeDigits false r
      if ds = [] then none
      else
        let n : Int := ofDigits 10 ds
        some (if negative then -n else n, rest)
    else some (0, s)
  | [] => some (0, [])

def signed (negative : Bool) (x : Binary64) : Binary64 := if negative then x.neg else x

/-- Reads a numeral after its sign and, in base sixteen, after its mark. -/
def unsigned (hex negative : Bool) (s : Bytes) : Option (Number × Bytes) :=
  let base := if hex then 16 else 10
  let (whole, r) := takeDigits hex s
  let (point, fraction, r) := match r with
    | 0x2E :: r => let (ds, rest) := takeDigits hex r; (true, ds, rest)
    | _ => (false, [], r)
  if whole = [] ∧ fraction = [] then none
  else
    match if hex then takeExponent 0x70 0x50 r else takeExponent 0x65 0x45 r with
    | none => none
    | some (e, rest) =>
      let value := ofDigits base (whole ++ fraction)
      if hex then
        if !point && rest.length == r.length then
          let i := Int64.ofNat value
          some (.int (if negative then -i else i), rest)
        else
          some (.float (signed negative (Binary64.ofDyadic value (e - 4 * fraction.length))), rest)
      else if !point && rest.length == r.length &&
          value < 0x8000000000000000 + (if negative then 1 else 0) then
        some (.int (Int64.ofInt (if negative then -(value : Int) else value)), rest)
      else some (.float (signed negative (Binary64.ofDecimal value (e - fraction.length))), rest)

def ofText? (s : Bytes) : Option Number :=
  let (negative, r) := takeSign (s.dropWhile isSpace)
  let read := match r with
    | 0x30 :: 0x78 :: r | 0x30 :: 0x58 :: r => unsigned true negative r
    | _ => unsigned false negative r
  match read with
  | some (n, rest) => if rest.all isSpace then some n else none
  | none => none

/-! ### Conversions -/

def toFloat : Number → Binary64
  | .int i => Binary64.ofInt i.toInt
  | .float x => x

def int64? (i : Int) : Option Int64 :=
  if Word.IsSigned64 i then some (Int64.ofInt i) else none

def toInt? : Number → Option Int64
  | .int i => some i
  | .float x => x.toInt?.bind int64?

/-! ### Comparison -/

def eq : Number → Number → Bool
  | .int a, .int b => a == b
  | .float a, .float b => a.eq b
  | .int a, .float b => b.toInt? == some a.toInt
  | .float a, .int b => a.toInt? == some b.toInt

def lt : Number → Number → Bool
  | .int a, .int b => a < b
  | .float a, .float b => a.lt b
  | .int a, .float b => Binary64.intLt a.toInt b
  | .float a, .int b => Binary64.ltInt a b.toInt

def le : Number → Number → Bool
  | .int a, .int b => a ≤ b
  | .float a, .float b => a.le b
  | .int a, .float b => Binary64.intLe a.toInt b
  | .float a, .int b => Binary64.leInt a b.toInt

/-! ### Arithmetic -/

inductive Operator where
  | add | sub | mul | div | mod | pow | idiv
  | band | bor | bxor | shl | shr
  deriving DecidableEq

def Operator.isBitwise : Operator → Bool
  | .band | .bor | .bxor | .shl | .shr => true
  | _ => false

inductive Fault where
  | divideByZero
  | moduloByZero
  | noInteger
  deriving DecidableEq

/-- Division of integers toward the lesser one. -/
def floorDiv (a b : Int64) : Int64 := Int64.ofInt (Int.fdiv a.toInt b.toInt)

/-- The remainder of that division; it has the sign of the divisor. -/
def floorMod (a b : Int64) : Int64 := Int64.ofInt (Int.fmod a.toInt b.toInt)

/-- The remainder of doubles with the sign of the divisor. -/
def floatMod (a b : Binary64) : Binary64 :=
  let m := a.remainder b
  let zero : Binary64 := ⟨0⟩
  if zero.lt m then (if b.lt zero then m.add b else m)
  else if m.lt zero && !(b.lt zero) && !(b.eq m) then m.add b
  else m

/-- A shift to the left, to the right for negative counts; bits that leave are lost. -/
def shiftLeft (a b : Int64) : Int64 :=
  let n := b.toInt
  if 64 ≤ n ∨ n ≤ -64 then 0
  else if 0 ≤ n then (a.toUInt64 <<< UInt64.ofNat n.toNat).toInt64
  else (a.toUInt64 >>> UInt64.ofNat (-n).toNat).toInt64

def intOp : Operator → Int64 → Int64 → Except Fault Number
  | .add, a, b => .ok (.int (a + b))
  | .sub, a, b => .ok (.int (a - b))
  | .mul, a, b => .ok (.int (a * b))
  | .div, a, b => .ok (.float ((Binary64.ofInt a.toInt).div (Binary64.ofInt b.toInt)))
  | .pow, a, b => .ok (.float ((Binary64.ofInt a.toInt).pow (Binary64.ofInt b.toInt)))
  | .mod, a, b => if b = 0 then .error .moduloByZero else .ok (.int (floorMod a b))
  | .idiv, a, b => if b = 0 then .error .divideByZero else .ok (.int (floorDiv a b))
  | .band, a, b => .ok (.int (a &&& b))
  | .bor, a, b => .ok (.int (a ||| b))
  | .bxor, a, b => .ok (.int (a ^^^ b))
  | .shl, a, b => .ok (.int (shiftLeft a b))
  | .shr, a, b => .ok (.int (shiftLeft a (-b)))

/-- The operators on two doubles; those on bits are not among them. -/
def floatOp : Operator → Binary64 → Binary64 → Binary64
  | .add, a, b => a.add b
  | .sub, a, b => a.sub b
  | .mul, a, b => a.mul b
  | .div, a, b => a.div b
  | .mod, a, b => floatMod a b
  | .pow, a, b => a.pow b
  | .idiv, a, b => (a.div b).floorFloat
  | .band, _, _ | .bor, _, _ | .bxor, _, _ | .shl, _, _ | .shr, _, _ => Binary64.nan

def apply (op : Operator) (a b : Number) : Except Fault Number :=
  if op.isBitwise then
    match a.toInt?, b.toInt? with
    | some a, some b => intOp op a b
    | _, _ => .error .noInteger
  else
    match a, b with
    | .int a, .int b => intOp op a b
    | a, b => .ok (.float (floatOp op a.toFloat b.toFloat))

end Number

end ScriptGate.Lua
