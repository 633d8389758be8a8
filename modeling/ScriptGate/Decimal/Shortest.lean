import ScriptGate.Binary64
import ScriptGate.Decimal.Digits

/-!
# Shortest and rounded decimals

`shortest` gives the fewest digits that lie in the interval of reals which round to a number, and of
those the nearest to it. `rounded` gives a fixed number of digits, a half going to the even
neighbour. Both work on the exact value `m · 2 ^ q`.
-/

namespace ScriptGate.Decimal

structure Ratio where
  num : Nat
  den : Nat

def Ratio.ofDyadic (m : Nat) (q : Int) : Ratio :=
  if 0 ≤ q then ⟨m <<< q.toNat, 1⟩ else ⟨m, 1 <<< (-q).toNat⟩

/-- The quotient by `10 ^ g`. -/
def Ratio.scale (r : Ratio) (g : Int) : Ratio :=
  if 0 ≤ g then ⟨r.num, r.den * Nat.pow 10 g.toNat⟩ else ⟨r.num * Nat.pow 10 (-g).toNat, r.den⟩

/-- Whether a positive number is at least `10 ^ e`. -/
def Ratio.reaches (r : Ratio) (e : Int) : Bool :=
  let s := r.scale e
  s.den ≤ s.num

/-- The `e` with `10 ^ e ≤ m · 2 ^ q < 10 ^ (e + 1)`, found beside the estimate from the binary
logarithm. -/
def decimalExponent (m : Nat) (q : Int) : Int :=
  let r := Ratio.ofDyadic m q
  let guess := Int.fdiv (((Nat.log2 m : Int) + q) * 30103) 100000
  if r.reaches (guess + 1) then guess + 1
  else if r.reaches guess then guess
  else guess - 1

/-- The point of the grid of multiples of `10 ^ g` inside the interval from `low` to `high` that is
nearest to `v`, if one is inside. All three are given in quarters of `2 ^ q`. -/
def gridPoint? (v low high : Nat) (q : Int) (closed : Bool) (g : Int) : Option Digits :=
  let at_ (n : Nat) := (Ratio.ofDyadic n (q - 2)).scale g
  let value := at_ v
  let below := value.num / value.den
  let inside (d : Nat) :=
    let l := at_ low
    let h := at_ high
    if closed then l.num ≤ d * l.den && d * h.den ≤ h.num
    else l.num < d * l.den && d * h.den < h.num
  let down := 0 < below && inside below
  let up := inside (below + 1)
  let rest := value.num % value.den
  match down, up with
  | true, true =>
    if 2 * rest < value.den then some ⟨below, g⟩
    else if value.den < 2 * rest then some ⟨below + 1, g⟩
    else some ⟨if below % 2 = 0 then below else below + 1, g⟩
  | true, false => some ⟨below, g⟩
  | false, true => some ⟨below + 1, g⟩
  | false, false => none

/-- The first grid with a point inside, from `n` digits up to seventeen. -/
def firstGrid (v low high : Nat) (q : Int) (closed : Bool) (e : Int) : Nat → Nat → Digits
  | _, 0 => ⟨v / 4, 0⟩
  | n, fuel + 1 =>
    match gridPoint? v low high q closed (e - n + 1) with
    | some d => d
    | none => firstGrid v low high q closed e (n + 1) fuel

/-- The shortest digits that read back as a finite number, its sign aside. -/
def shortest (x : Binary64) : Digits :=
  let (m, q) := x.magnitude
  if m = 0 then ⟨0, 0⟩
  else
    let narrow := x.fractionField = 0 && 1 < x.exponentField
    let low := 4 * m - (if narrow then 1 else 2)
    firstGrid (4 * m) low (4 * m + 2) q (m % 2 = 0) (decimalExponent m q) 1 17

/-- The quotient rounded to the nearest natural number, a half to the even one. -/
def Ratio.round (r : Ratio) : Nat :=
  let d := r.num / r.den
  let rest := r.num % r.den
  if 2 * rest < r.den then d
  else if r.den < 2 * rest then d + 1
  else if d % 2 = 0 then d else d + 1

/-- A finite number to `n` significant digits, its sign aside. -/
def rounded (x : Binary64) (n : Nat) : Digits :=
  let (m, q) := x.magnitude
  if m = 0 then ⟨0, 0⟩
  else
    let g := decimalExponent m q - n + 1
    ⟨((Ratio.ofDyadic m q).scale g).round, g⟩

/-- A finite number to `n` digits after the point, its sign aside, as a count of `10 ^ -n`. -/
def fixed (x : Binary64) (n : Nat) : Nat :=
  let (m, q) := x.magnitude
  ((Ratio.ofDyadic m q).scale (-n)).round

end ScriptGate.Decimal
