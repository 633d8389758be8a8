/-!
# The fraction of the circle constant

The binary digits of the ratio of circumference to diameter behind its point, in words of
thirty-two. A cipher fills its tables with them, because nobody has chosen them.
-/

namespace ScriptGate.Password

/-- `2 ^ bits` times the angle whose tangent is `1 / n`: the alternating sum of the odd powers of
`1 / n` over their exponents. `power` is the last power, `k` its exponent. -/
def arctan (n : Nat) : (fuel power k : Nat) → (sum : Int) → Int
  | 0, _, _, sum => sum
  | fuel + 1, power, k, sum =>
    if power = 0 then sum
    else
      let term : Int := power / k
      arctan n fuel (power / (n * n)) (k + 2) (if k % 4 = 1 then sum + term else sum - term)

def wordCount : Nat := 18 + 4 * 256

/-- Binary digits behind the point: those of the words, and some more against rounding. -/
def precision : Nat := 32 * wordCount + 64

/-- `2 ^ precision` times the circle constant: sixteen times the angle of `1 / 5` less four times
that of `1 / 239`. -/
def circle : Nat :=
  let one := 1 <<< precision
  (16 * arctan 5 precision (one / 5) 1 0 - 4 * arctan 239 precision (one / 239) 1 0).toNat

/-- The words of the fraction, the first one next to the point. -/
def fractionWords : Array UInt32 :=
  let c := circle
  ((List.range wordCount).map fun i => UInt32.ofNat (c >>> (precision - 32 * (i + 1)))).toArray

end ScriptGate.Password
