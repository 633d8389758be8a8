import Mathlib.Algebra.Order.Field.Power
import Mathlib.Tactic.Linarith
import Mathlib.Tactic.Positivity
import ScriptGate.Decimal.Shortest
import ScriptGate.Proofs.Decimal.Digits

/-!
# Shortest digits tell doubles apart

The reals that round to a double lie between two edges, which belong to it if its magnitude is even.
`edge` numbers the edges as the doubles are numbered, in units of `2 ^ -1076`, so that the upper
edge of one double is the lower edge of the next. The shortest digits of a double lie between its
edges, and no number lies between the edges of two.
-/

namespace ScriptGate.Decimal

/-! ### Quotients -/

namespace Ratio

def toRat (r : Ratio) : ℚ := r.num / r.den

theorem toRat_ofDyadic (m : Nat) (q : ℤ) : (ofDyadic m q).toRat = m * 2 ^ q := by
  unfold ofDyadic toRat
  split
  · rename_i above
    obtain ⟨k, rfl⟩ := Int.eq_ofNat_of_zero_le above
    simp [Nat.shiftLeft_eq]
  · rename_i below
    obtain ⟨k, rfl⟩ : ∃ k : Nat, q = -k := ⟨(-q).toNat, by omega⟩
    simp [Nat.shiftLeft_eq, div_eq_mul_inv]

theorem toRat_scale (r : Ratio) (g : ℤ) : (r.scale g).toRat = r.toRat / 10 ^ g := by
  unfold scale toRat
  split
  · rename_i above
    obtain ⟨k, rfl⟩ := Int.eq_ofNat_of_zero_le above
    simp [div_div]
  · rename_i below
    obtain ⟨k, rfl⟩ : ∃ k : Nat, g = -k := ⟨(-g).toNat, by omega⟩
    simp [div_eq_mul_inv, mul_right_comm]

theorem den_pos_ofDyadic (m : Nat) (q : ℤ) : 0 < (ofDyadic m q).den := by
  unfold ofDyadic
  split
  · exact Nat.one_pos
  · simp [Nat.shiftLeft_eq]

theorem den_pos_scale {r : Ratio} (positive : 0 < r.den) (g : ℤ) : 0 < (r.scale g).den := by
  unfold scale
  split
  · exact Nat.mul_pos positive (Nat.pow_pos (by decide))
  · exact positive

variable {r : Ratio}

theorem le_mul_den_iff (positive : 0 < r.den) (d : Nat) : r.num ≤ d * r.den ↔ r.toRat ≤ d := by
  rw [toRat, div_le_iff₀ (by exact_mod_cast positive)]
  exact_mod_cast Iff.rfl

theorem lt_mul_den_iff (positive : 0 < r.den) (d : Nat) : r.num < d * r.den ↔ r.toRat < d := by
  rw [toRat, div_lt_iff₀ (by exact_mod_cast positive)]
  exact_mod_cast Iff.rfl

theorem mul_den_le_iff (positive : 0 < r.den) (d : Nat) :
    d * r.den ≤ r.num ↔ (d : ℚ) ≤ r.toRat := by
  rw [toRat, le_div_iff₀ (by exact_mod_cast positive)]
  exact_mod_cast Iff.rfl

theorem mul_den_lt_iff (positive : 0 < r.den) (d : Nat) :
    d * r.den < r.num ↔ (d : ℚ) < r.toRat := by
  rw [toRat, lt_div_iff₀ (by exact_mod_cast positive)]
  exact_mod_cast Iff.rfl

theorem reaches_iff (positive : 0 < r.den) (e : ℤ) : r.reaches e = true ↔ 10 ^ e ≤ r.toRat := by
  have one := mul_den_le_iff (den_pos_scale positive e) 1
  rw [Nat.one_mul, toRat_scale, Nat.cast_one, le_div_iff₀ (by positivity), one_mul] at one
  rw [reaches]
  simpa using one

end Ratio

/-! ### The decimal exponent -/

/-- The estimate of the decimal logarithm of a power of two is off by less than one. -/
theorem ten_pow_estimate_le {l : ℤ} (low : -1074 ≤ l) (high : l ≤ 1023) :
    (10 : ℚ) ^ (Int.fdiv (l * 30103) 100000 - 1) ≤ 2 ^ l := by
  have above : ∀ k < 1024, 10 ^ (k * 30103 / 100000) ≤ 10 * 2 ^ k := by decide +kernel
  have below : ∀ k < 1075, 2 ^ k ≤ 10 ^ ((k * 30103 + 99999) / 100000 + 1) := by decide +kernel
  rcases le_or_gt 0 l with positive | negative
  · obtain ⟨k, rfl⟩ := Int.eq_ofNat_of_zero_le positive
    have estimate : Int.fdiv (k * 30103) 100000 = (k * 30103 / 100000 : Nat) := by
      rw [Int.fdiv_eq_ediv_of_nonneg _ (by omega)]
      omega
    rw [estimate, zpow_sub_one₀ (by norm_num), zpow_natCast, zpow_natCast,
      mul_inv_le_iff₀ (by norm_num), mul_comm (2 ^ k : ℚ)]
    exact_mod_cast above k (by omega)
  · obtain ⟨k, rfl⟩ : ∃ k : Nat, l = -k := ⟨(-l).toNat, by omega⟩
    have estimate : Int.fdiv (-k * 30103) 100000 - 1 =
        -(((k * 30103 + 99999) / 100000 + 1 : Nat) : ℤ) := by
      rw [Int.fdiv_eq_ediv_of_nonneg _ (by omega)]
      omega
    rw [estimate, zpow_neg, zpow_neg, zpow_natCast, zpow_natCast]
    refine inv_anti₀ (by positivity) ?_
    exact_mod_cast below k (by omega)

/-- A number in the range of doubles reaches the power of ten that is taken for its first digit. -/
theorem ten_pow_decimalExponent_le {m : Nat} {q : ℤ} (positive : 0 < m) (small : m < 2 ^ 53)
    (low : -1074 ≤ q) (high : q ≤ 971) : (10 : ℚ) ^ decimalExponent m q ≤ m * 2 ^ q := by
  have reached {e : ℤ} (reaches : (Ratio.ofDyadic m q).reaches e = true) :
      (10 : ℚ) ^ e ≤ m * 2 ^ q := by
    rw [← Ratio.toRat_ofDyadic]
    exact (Ratio.reaches_iff (Ratio.den_pos_ofDyadic m q) e).mp reaches
  unfold decimalExponent
  dsimp only
  split
  · exact reached ‹_›
  split
  · exact reached ‹_›
  -- What is left is the estimate, which cannot be too large by more than one.
  have bits : Nat.log2 m ≤ 52 := by
    have := (Nat.log2_lt positive.ne').mpr small
    omega
  have power : (2 : ℚ) ^ ((Nat.log2 m : ℤ) + q) ≤ m * 2 ^ q := by
    rw [zpow_add₀ (by norm_num), zpow_natCast]
    refine mul_le_mul_of_nonneg_right ?_ (by positivity)
    exact_mod_cast Nat.log2_self_le positive.ne'
  exact (ten_pow_estimate_le (by omega) (by omega)).trans power

/-! ### Points between edges -/

/-- A number lies between two edges, which count only where the interval is closed. -/
def Within (low high : ℚ) (closed : Bool) (r : ℚ) : Prop :=
  if closed = true then low ≤ r ∧ r ≤ high else low < r ∧ r < high

variable {v low high n : Nat} {q g e : ℤ} {closed : Bool}

theorem within_of_lt {l h r : ℚ} (above : l < r) (below : r < h) : Within l h closed r := by
  unfold Within
  split
  · exact ⟨above.le, below.le⟩
  · exact ⟨above, below⟩

theorem Within.between {l h r : ℚ} (within : Within l h closed r) : l ≤ r ∧ r ≤ h := by
  unfold Within at within
  split at within
  · exact within
  · exact ⟨within.1.le, within.2.le⟩

theorem within_grid (d : Nat) :
    Within (low * 2 ^ (q - 2)) (high * 2 ^ (q - 2)) closed (d * 10 ^ g) ↔
      Within ((Ratio.ofDyadic low (q - 2)).scale g).toRat
        ((Ratio.ofDyadic high (q - 2)).scale g).toRat closed d := by
  have step : (0 : ℚ) < 10 ^ g := by positivity
  simp only [Within, Ratio.toRat_scale, Ratio.toRat_ofDyadic, div_le_iff₀ step, le_div_iff₀ step,
    div_lt_iff₀ step, lt_div_iff₀ step]

/-- Whether a multiple of `10 ^ g` lies between the edges, as `gridPoint?` asks. -/
def isInside (low high : Nat) (q : ℤ) (closed : Bool) (g : ℤ) (d : Nat) : Bool :=
  let l := (Ratio.ofDyadic low (q - 2)).scale g
  let h := (Ratio.ofDyadic high (q - 2)).scale g
  if closed then l.num ≤ d * l.den && d * h.den ≤ h.num
  else l.num < d * l.den && d * h.den < h.num

theorem isInside_iff (d : Nat) : isInside low high q closed g d = true ↔
    Within (low * 2 ^ (q - 2)) (high * 2 ^ (q - 2)) closed (d * 10 ^ g) := by
  have positive (m : Nat) : 0 < ((Ratio.ofDyadic m (q - 2)).scale g).den :=
    Ratio.den_pos_scale (Ratio.den_pos_ofDyadic m _) g
  rw [within_grid, isInside, Within]
  cases closed
  · simp [Ratio.lt_mul_den_iff (positive low), Ratio.mul_den_lt_iff (positive high)]
  · simp [Ratio.le_mul_den_iff (positive low), Ratio.mul_den_le_iff (positive high)]

def stepsBelow (v : Nat) (q g : ℤ) : Nat :=
  let value := (Ratio.ofDyadic v (q - 2)).scale g
  value.num / value.den

theorem stepsBelow_le (v : Nat) (q g : ℤ) :
    (stepsBelow v q g * 10 ^ g : ℚ) ≤ v * 2 ^ (q - 2) ∧
      (v * 2 ^ (q - 2) : ℚ) < (stepsBelow v q g + 1 : Nat) * 10 ^ g := by
  have positive : 0 < ((Ratio.ofDyadic v (q - 2)).scale g).den :=
    Ratio.den_pos_scale (Ratio.den_pos_ofDyadic v _) g
  have grid : (0 : ℚ) < 10 ^ g := by positivity
  have value : ((Ratio.ofDyadic v (q - 2)).scale g).toRat = v * 2 ^ (q - 2) / 10 ^ g := by
    rw [Ratio.toRat_scale, Ratio.toRat_ofDyadic]
  constructor
  · rw [← le_div_iff₀ grid, ← value, ← Ratio.mul_den_le_iff positive]
    exact Nat.div_mul_le_self _ _
  · rw [← div_lt_iff₀ grid, ← value, ← Ratio.lt_mul_den_iff positive]
    exact Nat.lt_mul_of_div_lt (Nat.lt_succ_self _) positive

theorem within_gridPoint? {d : Digits} (found : gridPoint? v low high q closed g = some d) :
    Within (low * 2 ^ (q - 2)) (high * 2 ^ (q - 2)) closed d.toRat := by
  have inside {n : Nat} (is_inside : isInside low high q closed g n = true) :
      Within (low * 2 ^ (q - 2)) (high * 2 ^ (q - 2)) closed (Digits.toRat ⟨n, g⟩) :=
    (isInside_iff n).mp is_inside
  unfold gridPoint? at found
  dsimp only at found
  split at found
  · rename_i down up
    have lower := inside (Bool.and_eq_true_iff.mp down).2
    have upper := inside up
    split at found
    · exact Option.some.inj found ▸ lower
    · split at found
      · exact Option.some.inj found ▸ upper
      · obtain rfl := Option.some.inj found
        split
        · exact lower
        · exact upper
  · rename_i down _
    exact Option.some.inj found ▸ inside (Bool.and_eq_true_iff.mp down).2
  · rename_i up
    exact Option.some.inj found ▸ inside up
  · cases found

/-- A grid finer than the distance of the edges has a point between them. -/
theorem isSome_gridPoint? (positive : 0 < low) (above : low < v) (below : v < high)
    (fine : (10 : ℚ) ^ g < (high - low) * 2 ^ (q - 2)) :
    (gridPoint? v low high q closed g).isSome = true := by
  obtain ⟨lower, upper⟩ := stepsBelow_le v q g
  have unit : (0 : ℚ) < 2 ^ (q - 2) := by positivity
  have above' : (low * 2 ^ (q - 2) : ℚ) < v * 2 ^ (q - 2) :=
    mul_lt_mul_of_pos_right (by exact_mod_cast above) unit
  have below' : (v * 2 ^ (q - 2) : ℚ) < high * 2 ^ (q - 2) :=
    mul_lt_mul_of_pos_right (by exact_mod_cast below) unit
  -- Either the grid point below the number is above the lower edge, or the next one is below the
  -- upper edge.
  have inside : (0 < stepsBelow v q g ∧ isInside low high q closed g (stepsBelow v q g) = true) ∨
      isInside low high q closed g (stepsBelow v q g + 1) = true := by
    rcases lt_or_ge (low * 2 ^ (q - 2) : ℚ) (stepsBelow v q g * 10 ^ g) with beyond | under
    · left
      refine ⟨?_, (isInside_iff _).mpr (within_of_lt beyond (lower.trans_lt below'))⟩
      by_contra none_below
      have zero : stepsBelow v q g = 0 := by omega
      rw [zero] at beyond
      have edge : (0 : ℚ) < low * 2 ^ (q - 2) := mul_pos (by exact_mod_cast positive) unit
      simp only [Nat.cast_zero, zero_mul] at beyond
      exact absurd beyond edge.le.not_gt
    · right
      refine (isInside_iff _).mpr (within_of_lt (above'.trans upper) ?_)
      push_cast
      linarith
  have shape : gridPoint? v low high q closed g = none →
      (decide (0 < stepsBelow v q g) && isInside low high q closed g (stepsBelow v q g)) = false ∧
        isInside low high q closed g (stepsBelow v q g + 1) = false := by
    intro nothing
    unfold gridPoint? at nothing
    dsimp only at nothing
    split at nothing
    · split at nothing
      · cases nothing
      · split at nothing <;> cases nothing
    · cases nothing
    · cases nothing
    · rename_i down up
      exact ⟨down, up⟩
  by_contra nothing
  obtain ⟨down, up⟩ := shape (by simpa using nothing)
  rcases inside with ⟨some_below, is_inside⟩ | is_inside
  · simp [some_below, is_inside] at down
  · simp [is_inside] at up

theorem within_firstGrid {fuel : Nat}
    (reached : ∃ k, n ≤ k ∧ k < n + fuel ∧
      (gridPoint? v low high q closed (e - k + 1)).isSome = true) :
    Within (low * 2 ^ (q - 2)) (high * 2 ^ (q - 2)) closed
      (firstGrid v low high q closed e n fuel).toRat := by
  obtain ⟨k, from_n, below, there⟩ := reached
  induction fuel generalizing n with
  | zero => omega
  | succ fuel ih =>
    rw [firstGrid]
    split
    · rename_i d found
      exact within_gridPoint? found
    · rename_i nothing
      have other : n ≠ k := by
        rintro rfl
        simp [nothing] at there
      exact ih (by omega) (by omega)

/-! ### The edges of doubles -/

open Binary64 (fractionCount)

/-- The number of a double among those without a sign: its fields side by side. -/
def key (x : Binary64) : Nat := x.exponentField * fractionCount + x.fractionField

/-- The significand of a double with these fields. -/
def significandOf (fraction exponent : Nat) : Nat :=
  fraction + if exponent = 0 then 0 else fractionCount

/-- The lower edge of a double with these fields, in units of `2 ^ -1076`. It is closer where the
doubles below are denser. -/
def lowerEdge (fraction exponent : Nat) : Nat :=
  (4 * significandOf fraction exponent - if fraction = 0 ∧ 1 < exponent then 1 else 2) *
    2 ^ (exponent - 1)

def upperEdge (fraction exponent : Nat) : Nat :=
  (4 * significandOf fraction exponent + 2) * 2 ^ (exponent - 1)

theorem lowerEdge_succ (fraction exponent : Nat) :
    lowerEdge (fraction + 1) exponent = upperEdge fraction exponent := by
  have behind : ¬ (fraction + 1 = 0 ∧ 1 < exponent) := by omega
  have equal (s : Nat) : 4 * (fraction + 1 + s) - 2 = 4 * (fraction + s) + 2 := by omega
  rw [lowerEdge, upperEdge, significandOf, significandOf, if_neg behind, equal]

/-- The first double of a binary order begins where the last one of the order below ends. -/
theorem lowerEdge_carry {fraction : Nat} (last : fraction + 1 = fractionCount) (exponent : Nat) :
    lowerEdge 0 (exponent + 1) = upperEdge fraction exponent := by
  have normal : significandOf 0 (exponent + 1) = fraction + 1 := by
    rw [significandOf, if_neg (Nat.succ_ne_zero _), Nat.zero_add, last]
  cases exponent with
  | zero =>
    have subnormal : significandOf fraction 0 = fraction := by rw [significandOf, if_pos rfl]; rfl
    have near : ¬ ((0 : Nat) = 0 ∧ 1 < 0 + 1) := by omega
    have equal : 4 * (fraction + 1) - 2 = 4 * fraction + 2 := by omega
    rw [lowerEdge, upperEdge, normal, subnormal, if_neg near, equal]
  | succ k =>
    have wide : significandOf fraction (k + 1) = 2 * fraction + 1 := by
      rw [significandOf, if_neg (Nat.succ_ne_zero _), ← last]
      omega
    have denser : (0 : Nat) = 0 ∧ 1 < k + 1 + 1 := by omega
    have doubled : 2 ^ (k + 1) = 2 * 2 ^ k := by rw [Nat.pow_succ, Nat.mul_comm]
    have equal : (4 * (fraction + 1) - 1) * 2 = 4 * (2 * fraction + 1) + 2 := by omega
    rw [lowerEdge, upperEdge, normal, wide, if_pos denser, Nat.add_sub_cancel, Nat.add_sub_cancel,
      doubled, ← Nat.mul_assoc, equal]

def edge (n : Nat) : Nat := lowerEdge (n % fractionCount) (n / fractionCount)

theorem edge_succ (n : Nat) :
    edge (n + 1) = upperEdge (n % fractionCount) (n / fractionCount) := by
  have positive : 0 < fractionCount := by decide
  by_cases last : n % fractionCount + 1 = fractionCount
  · have fields : (n + 1) % fractionCount = 0 ∧
        (n + 1) / fractionCount = n / fractionCount + 1 := by
      simp only [fractionCount] at *
      omega
    rw [edge, fields.1, fields.2, lowerEdge_carry last]
  · have fields : (n + 1) % fractionCount = n % fractionCount + 1 ∧
        (n + 1) / fractionCount = n / fractionCount := by
      simp only [fractionCount] at *
      omega
    rw [edge, fields.1, fields.2, lowerEdge_succ]

theorem edge_lt_succ (n : Nat) : edge n < edge (n + 1) := by
  rw [edge_succ, edge, lowerEdge, upperEdge]
  refine Nat.mul_lt_mul_of_pos_right ?_ (Nat.pow_pos (by decide))
  split <;> omega

theorem strictMono_edge : StrictMono edge := strictMono_nat_of_lt_succ edge_lt_succ

/-- A number lies between the edges of the double of a number. -/
def Rounds (n : Nat) (r : ℚ) : Prop :=
  Within (edge n * 2 ^ (-1076 : ℤ)) (edge (n + 1) * 2 ^ (-1076 : ℤ)) (n % 2 = 0) r

/-- No number lies between the edges of two doubles. -/
theorem Rounds.unique {a b : Nat} {r : ℚ} (one : Rounds a r) (other : Rounds b r) : a = b := by
  have unit : (0 : ℚ) < 2 ^ (-1076 : ℤ) := by positivity
  have apart {a b : Nat} (one : Rounds a r) (other : Rounds b r) : ¬ a < b := by
    intro below
    have upper := one.between.2
    have lower := other.between.1
    have edges : edge b ≤ edge (a + 1) := by
      have := le_of_mul_le_mul_right (lower.trans upper) unit
      exact_mod_cast this
    -- The two are neighbours and share an edge, which belongs to the even one alone.
    obtain rfl : b = a + 1 := by
      have := strictMono_edge.le_iff_le.mp edges
      omega
    have equal : r = edge (a + 1) * 2 ^ (-1076 : ℤ) := le_antisymm upper lower
    unfold Rounds Within at one other
    rcases Nat.even_or_odd a with even | odd
    · have odd_next : ¬ (a + 1) % 2 = 0 := by
        obtain ⟨k, rfl⟩ := even
        omega
      rw [if_neg (by simpa using odd_next)] at other
      exact absurd equal other.1.ne'
    · have odd_first : ¬ a % 2 = 0 := by
        obtain ⟨k, rfl⟩ := odd
        omega
      rw [if_neg (by simpa using odd_first)] at one
      exact absurd equal one.2.ne
  have := apart one other
  have := apart other one
  omega

/-! ### The shortest digits -/

variable {x : Binary64}

theorem fractionField_lt (x : Binary64) : x.fractionField < fractionCount :=
  Nat.mod_lt _ (by decide)

theorem key_fields (x : Binary64) :
    key x % fractionCount = x.fractionField ∧ key x / fractionCount = x.exponentField := by
  have below := fractionField_lt x
  rw [key, Nat.add_comm]
  constructor
  · rw [Nat.add_mul_mod_self_right, Nat.mod_eq_of_lt below]
  · rw [Nat.add_mul_div_right _ _ (by decide), Nat.div_eq_of_lt below, Nat.zero_add]

theorem magnitude_eq (x : Binary64) : x.magnitude =
    (significandOf x.fractionField x.exponentField, ((x.exponentField - 1 : Nat) : ℤ) - 1074) := by
  unfold Binary64.magnitude significandOf
  split
  · rename_i subnormal
    simp [subnormal]
  · exact Prod.ext rfl (by simp only; omega)

theorem exponentField_le (finite : x.isFinite = true) : x.exponentField ≤ 2046 := by
  have below : x.exponentField < 2048 := Nat.mod_lt _ (by decide)
  have not_last : x.exponentField ≠ 2047 := by simpa [Binary64.isFinite] using finite
  omega

/-- A significand has at most fifty-three bits, and the least normal one where the doubles below are
denser. -/
theorem significandOf_bounds (x : Binary64) :
    significandOf x.fractionField x.exponentField < 2 ^ 53 ∧
      (x.fractionField = 0 ∧ 1 < x.exponentField →
        significandOf x.fractionField x.exponentField = 2 ^ 52) := by
  have below := fractionField_lt x
  simp only [significandOf, fractionCount] at *
  split <;> omega

/-- Seventeen digits are fine enough to have a point between the edges of a double. -/
theorem fine_grid {m : Nat} {q : ℤ} {width : Nat} (positive : 0 < m) (small : m < 2 ^ 53)
    (low : -1074 ≤ q) (high : q ≤ 971) (wide : 4 * m < width * 10 ^ 16) :
    (10 : ℚ) ^ (decimalExponent m q - (17 : Nat) + 1) < width * 2 ^ (q - 2) := by
  have reached := ten_pow_decimalExponent_le positive small low high
  have places : decimalExponent m q - (17 : Nat) + 1 = decimalExponent m q - (16 : Nat) := by omega
  have unit : (0 : ℚ) < 2 ^ q := by positivity
  have wide' : (4 * m : ℚ) < width * 10 ^ 16 := by exact_mod_cast wide
  rw [places, zpow_sub₀ (by norm_num), zpow_sub₀ (by norm_num), zpow_natCast,
    div_lt_iff₀ (by norm_num)]
  calc (10 : ℚ) ^ decimalExponent m q ≤ m * 2 ^ q := reached
    _ = 4 * m * (2 ^ q / 2 ^ (2 : ℤ)) := by norm_num; ring
    _ < width * 10 ^ 16 * (2 ^ q / 2 ^ (2 : ℤ)) := by gcongr
    _ = width * (2 ^ q / 2 ^ (2 : ℤ)) * 10 ^ 16 := by ring

theorem cast_edge (factor k : Nat) :
    ((factor * 2 ^ k : Nat) : ℚ) * 2 ^ (-1076 : ℤ) = factor * 2 ^ ((k : ℤ) - 1074 - 2) := by
  rw [Nat.cast_mul, Nat.cast_pow, Nat.cast_ofNat, mul_assoc, ← zpow_natCast,
    ← zpow_add₀ (by norm_num)]
  congr 2
  ring

/-- The shortest digits of a double lie between its edges. -/
theorem rounds_shortest (finite : x.isFinite = true) : Rounds (key x) (shortest x).toRat := by
  obtain ⟨fraction, exponent⟩ := key_fields x
  obtain ⟨small, least⟩ := significandOf_bounds x
  have bound := exponentField_le finite
  have parity : key x % 2 = significandOf x.fractionField x.exponentField % 2 := by
    simp only [key, significandOf, fractionCount]
    split <;> omega
  rw [Rounds, edge_succ, edge, fraction, exponent, parity, lowerEdge, upperEdge, cast_edge,
    cast_edge, shortest, magnitude_eq]
  dsimp only
  generalize significandOf x.fractionField x.exponentField = m at *
  by_cases zero : m = 0
  · subst zero
    have above : (0 : ℚ) ≤ 2 ^ (((x.exponentField - 1 : Nat) : ℤ) - 1074 - 2) := by positivity
    simpa [Within, Digits.toRat] using above
  · rw [if_neg zero]
    have narrow : (decide (x.fractionField = 0) && decide (1 < x.exponentField)) = true ↔
        x.fractionField = 0 ∧ 1 < x.exponentField := by simp
    simp only [narrow]
    refine within_firstGrid ⟨17, by omega, by omega, isSome_gridPoint? ?_ ?_ (by omega) ?_⟩
    · split <;> omega
    · split <;> omega
    · have width (gap : Nat) (near : gap ≤ 4 * m) :
          ((4 * m + 2 : Nat) : ℚ) - ((4 * m - gap : Nat) : ℚ) = (gap + 2 : Nat) := by
        rw [Nat.cast_sub near]
        push_cast
        ring
      split
      · rename_i denser
        rw [width 1 (by omega)]
        exact fine_grid (by omega) small (by omega) (by omega) (by rw [least denser]; norm_num)
      · rw [width 2 (by omega)]
        exact fine_grid (by omega) small (by omega) (by omega) (by omega)

theorem bits_eq (x : Binary64) :
    x.bits.toNat = (if x.isNegative = true then 2 ^ 63 else 0) + key x := by
  have below : x.bits.toNat < 2 ^ 64 := x.bits.toNat_lt
  have shifted : (x.bits >>> 52).toNat = x.bits.toNat / 2 ^ 52 := by
    rw [UInt64.toNat_shiftRight, Nat.shiftRight_eq_div_pow]
    rfl
  have negative : x.isNegative = true ↔ 2 ^ 63 ≤ x.bits.toNat := by
    rw [Binary64.isNegative, decide_eq_true_iff, UInt64.le_iff_toNat_le]
    rfl
  rw [key, Binary64.exponentField, Binary64.fractionField, shifted]
  simp only [negative, fractionCount]
  split <;> omega

/-- Doubles of one sign with the same shortest digits are one double. -/
theorem shortest_injective {y : Binary64} (finite : x.isFinite = true) (finite' : y.isFinite = true)
    (sign : x.isNegative = y.isNegative) (digits : (shortest x).toRat = (shortest y).toRat) :
    x = y := by
  have same : key x = key y :=
    (rounds_shortest finite).unique (digits ▸ rounds_shortest finite')
  have bits : x.bits = y.bits := UInt64.toNat_inj.mp (by rw [bits_eq, bits_eq, sign, same])
  cases x
  cases y
  exact congrArg Binary64.mk bits

end ScriptGate.Decimal
