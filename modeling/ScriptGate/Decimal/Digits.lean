/-!
# Decimal numerals

A `Digits` value is a natural number times a power of ten. A `Style` says how one is written: which
decimal exponents are written positionally, whether an integral value ends in `.0`, and how many
digits an exponent has at least.
-/

namespace ScriptGate.Decimal

/-- The number `value · 10 ^ exponent`. -/
structure Digits where
  value : Nat
  exponent : Int
  deriving DecidableEq, Repr

/-- The same number with a value that does not end in zero, trying at most `fuel` zeros. -/
def Digits.stripZeros (d : Digits) : Nat → Digits
  | 0 => d
  | fuel + 1 =>
    if d.value ≠ 0 ∧ d.value % 10 = 0 then
      Digits.stripZeros ⟨d.value / 10, d.exponent + 1⟩ fuel
    else d

structure Style where
  /-- Whether a number whose first digit counts `10 ^ e` is written without an exponent. -/
  positional : Int → Bool
  /-- Whether an integral number in positional form ends in `.0`. -/
  pointZero : Bool
  /-- The least number of exponent digits. -/
  exponentDigits : Nat

def natDigits (n : Nat) : List Char := Nat.toDigits 10 n

/-- Positional form of digits of which the first counts `10 ^ e`. -/
def Style.writePositional (st : Style) (ds : List Char) (e : Int) : List Char :=
  if e < 0 then '0' :: '.' :: List.replicate (-e - 1).toNat '0' ++ ds
  else
    let whole := (e + 1).toNat
    if ds.length ≤ whole then
      ds ++ List.replicate (whole - ds.length) '0' ++ (if st.pointZero then ['.', '0'] else [])
    else ds.take whole ++ '.' :: ds.drop whole

/-- Form with an exponent, of digits of which the first counts `10 ^ e`. -/
def Style.writeScientific (st : Style) (ds : List Char) (e : Int) : List Char :=
  let tail := ds.drop 1
  let mantissa := ds.take 1 ++ (if tail.isEmpty then [] else '.' :: tail)
  let power := natDigits e.natAbs
  mantissa ++ 'e' :: (if e < 0 then '-' else '+') ::
    (List.replicate (st.exponentDigits - power.length) '0' ++ power)

def Style.write (st : Style) (negative : Bool) (d : Digits) : String :=
  let d := d.stripZeros 400
  let ds := natDigits d.value
  let e := if d.value = 0 then 0 else d.exponent + ds.length - 1
  let body := if st.positional e then st.writePositional ds e else st.writeScientific ds e
  String.ofList (if negative then '-' :: body else body)

end ScriptGate.Decimal
