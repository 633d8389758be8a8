/-!
# Binary floating point

`Binary64` is a double-precision number given by its bits, so equality of values of this type is
equality of bits. Arithmetic is that of `Float`; what needs exactness (truncation, remainder,
comparison with integers) works on `magnitude`, the pair `m, q` with value `m · 2 ^ q`.
-/

namespace ScriptGate

/-- A double-precision number by its bits. -/
structure Binary64 where
  bits : UInt64
  deriving DecidableEq, Hashable, Repr, Inhabited

namespace Binary64

def toFloat (x : Binary64) : Float := Float.ofBits x.bits

/-- The quiet not-a-number that arithmetic produces: its sign bit is set. -/
def nan : Binary64 := ⟨0xFFF8000000000000⟩

def ofFloat (f : Float) : Binary64 := if f.isNaN then nan else ⟨f.toBits⟩

def isNegative (x : Binary64) : Bool := 0x8000000000000000 ≤ x.bits

def exponentField (x : Binary64) : Nat := (x.bits >>> 52).toNat % 2048

def fractionCount : Nat := 4503599627370496

def fractionField (x : Binary64) : Nat := x.bits.toNat % fractionCount

def isNaN (x : Binary64) : Bool := x.exponentField = 2047 && x.fractionField ≠ 0

def isInfinite (x : Binary64) : Bool := x.exponentField = 2047 && x.fractionField = 0

def isFinite (x : Binary64) : Bool := x.exponentField ≠ 2047

def isZero (x : Binary64) : Bool := x.exponentField = 0 && x.fractionField = 0

/-- The pair `m, q` such that a finite number is `m · 2 ^ q`, its sign aside. -/
def magnitude (x : Binary64) : Nat × Int :=
  if x.exponentField = 0 then (x.fractionField, -1074)
  else (x.fractionField + fractionCount, (x.exponentField : Int) - 1075)

def neg (x : Binary64) : Binary64 := ⟨x.bits ^^^ 0x8000000000000000⟩

def abs (x : Binary64) : Binary64 := ⟨x.bits &&& 0x7FFFFFFFFFFFFFFF⟩

def infinity : Binary64 := ⟨0x7FF0000000000000⟩

/-- The nearest number to an integer, ties to even. -/
def ofInt (i : Int) : Binary64 := ofFloat (Float.ofInt i)

/-- The nearest number to `m · 10 ^ e`, ties to even. Powers whose result is beyond every double or
below half of the least one are not computed. -/
def ofDecimal (m : Nat) (e : Int) : Binary64 :=
  let digits : Int := (Nat.toDigits 10 m).length
  if m = 0 || e + digits < -330 then ⟨0⟩
  else if 330 < e + digits then ⟨0x7FF0000000000000⟩
  else ofFloat (Float.ofScientific m (e < 0) e.natAbs)

/-- `m · 2 ^ q`, exact when the number has a double of that value. -/
def ofDyadic (m : Nat) (q : Int) : Binary64 :=
  if m = 0 then ⟨0⟩
  else
    let shift := (Nat.log2 m : Int) - 52
    let shift := if q + shift < -1074 then -1074 - q else shift
    let (k, p) := if 0 ≤ shift then (m >>> shift.toNat, q + shift)
      else (m <<< (-shift).toNat, q + shift)
    if k < fractionCount then ⟨UInt64.ofNat k⟩
    else if 971 < p then infinity
    else ⟨UInt64.ofNat ((p + 1075).toNat * fractionCount + (k - fractionCount))⟩

/-- The integer part of a finite number, toward zero; zero for the others. -/
def truncate (x : Binary64) : Int :=
  if x.isFinite then
    let (m, q) := x.magnitude
    let n := if 0 ≤ q then m <<< q.toNat else m >>> (-q).toNat
    if x.isNegative then -(n : Int) else n
  else 0

def isIntegral (x : Binary64) : Bool :=
  x.isFinite &&
    (let (m, q) := x.magnitude
     decide (0 ≤ q) || m % (1 <<< (-q).toNat) == 0)

def floor (x : Binary64) : Int :=
  if x.isIntegral || !x.isNegative then x.truncate else x.truncate - 1

def ceil (x : Binary64) : Int :=
  if x.isIntegral || x.isNegative then x.truncate else x.truncate + 1

def toInt? (x : Binary64) : Option Int := if x.isIntegral then some x.truncate else none

/-- The integer part, held within a range; zero where there is no number. -/
def saturate (x : Binary64) (low high : Int) : Int :=
  if x.isNaN then 0
  else if x.isInfinite then (if x.isNegative then low else high)
  else max low (min high x.truncate)

def add (x y : Binary64) : Binary64 := ofFloat (x.toFloat + y.toFloat)
def sub (x y : Binary64) : Binary64 := ofFloat (x.toFloat - y.toFloat)
def mul (x y : Binary64) : Binary64 := ofFloat (x.toFloat * y.toFloat)
def div (x y : Binary64) : Binary64 := ofFloat (x.toFloat / y.toFloat)
def pow (x y : Binary64) : Binary64 := ofFloat (Float.pow x.toFloat y.toFloat)

/-- Numeric equality: zeros are equal whatever their sign, and not-a-number equals nothing. -/
def eq (x y : Binary64) : Bool := x.toFloat == y.toFloat
def lt (x y : Binary64) : Bool := x.toFloat < y.toFloat
def le (x y : Binary64) : Bool := x.toFloat ≤ y.toFloat

/-- The number with the integral value `i`, a negative zero where `i` is zero and `x` negative. -/
def ofIntLike (x : Binary64) (i : Int) : Binary64 :=
  if i = 0 then (if x.isNegative then ⟨0x8000000000000000⟩ else ⟨0⟩) else ofInt i

def floorFloat (x : Binary64) : Binary64 := if x.isFinite then x.ofIntLike x.floor else x

def ceilFloat (x : Binary64) : Binary64 := if x.isFinite then x.ofIntLike x.ceil else x

/-- The exact remainder of division toward zero; it has the sign of `x`. -/
def remainder (x y : Binary64) : Binary64 :=
  if x.isNaN || y.isNaN || x.isInfinite || y.isZero then nan
  else if y.isInfinite then x
  else
    let (m, q) := x.magnitude
    let (n, r) := y.magnitude
    let low := min q r
    let a := m <<< (q - low).toNat
    let b := n <<< (r - low).toNat
    let z := ofDyadic (a % b) low
    if x.isNegative then z.neg else z

/-- Whether `i` is below `x`, compared as numbers without rounding. -/
def intLt (i : Int) (x : Binary64) : Bool :=
  if x.isNaN then false
  else if x.isInfinite then !x.isNegative
  else i < x.ceil

def ltInt (x : Binary64) (i : Int) : Bool :=
  if x.isNaN then false
  else if x.isInfinite then x.isNegative
  else x.floor < i

def intLe (i : Int) (x : Binary64) : Bool :=
  if x.isNaN then false
  else if x.isInfinite then !x.isNegative
  else i ≤ x.floor

def leInt (x : Binary64) (i : Int) : Bool :=
  if x.isNaN then false
  else if x.isInfinite then x.isNegative
  else x.ceil ≤ i

def toHex (x : Binary64) : String :=
  let digit := fun i : Nat =>
    let n := (x.bits.toNat >>> (4 * (15 - i))) % 16
    if n < 10 then Char.ofNat (0x30 + n) else Char.ofNat (0x57 + n)
  String.ofList ((List.range 16).map digit)

end Binary64

end ScriptGate
