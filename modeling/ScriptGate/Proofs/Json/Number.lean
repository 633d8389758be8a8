import Mathlib.Data.Rat.Floor
import ScriptGate.Json.Basic
import ScriptGate.Proofs.Binary64

/-!
# Numbers as whole seconds

A number counts as a whole number of seconds: its exact value without the part behind the point,
held in the range of sixty-four signed bits. An integer in that range is itself; one above it is as
much as the greatest (`le_truncate_ofInt`), although it is rounded to a double first.
-/

namespace ScriptGate

def wholePart (r : ℚ) : ℤ := if 0 ≤ r then ⌊r⌋ else ⌈r⌉

theorem wholePart_intCast (i : ℤ) : wholePart i = i := by
  unfold wholePart
  split
  · exact Int.floor_intCast i
  · exact Int.ceil_intCast i

theorem wholePart_neg (r : ℚ) : wholePart (-r) = -wholePart r := by
  unfold wholePart
  rcases lt_trichotomy r 0 with below | rfl | above
  · rw [if_pos (by linarith), if_neg (by linarith), Int.floor_neg]
  · simp
  · rw [if_neg (by linarith), if_pos (by linarith), Int.ceil_neg]

namespace Binary64

open Decimal (key key_fields magnitude_eq significandOf)

variable {x : Binary64}

def toRat (x : Binary64) : ℚ :=
  let (m, q) := x.magnitude
  if x.isNegative then -(m * 2 ^ q) else m * 2 ^ q

theorem wholePart_dyadic (m : ℕ) (q : ℤ) :
    wholePart (m * 2 ^ q) = (if 0 ≤ q then m <<< q.toNat else m >>> (-q).toNat : ℕ) := by
  have positive : (0 : ℚ) ≤ m * 2 ^ q := by positivity
  rw [wholePart, if_pos positive]
  split
  · rename_i up
    obtain ⟨k, rfl⟩ := Int.eq_ofNat_of_zero_le up
    rw [Int.toNat_natCast, Nat.shiftLeft_eq, zpow_natCast]
    exact_mod_cast Int.floor_natCast (m * 2 ^ k)
  · rename_i down
    obtain ⟨k, same⟩ := Int.eq_ofNat_of_zero_le (show 0 ≤ -q by omega)
    rw [same, Int.toNat_natCast, Nat.shiftRight_eq_div_pow, show q = -(k : ℤ) by omega, zpow_neg,
      zpow_natCast, ← div_eq_mul_inv]
    exact_mod_cast Rat.floor_natCast_div_natCast m (2 ^ k)

theorem truncate_eq (finite : x.isFinite = true) : x.truncate = wholePart x.toRat := by
  unfold truncate toRat
  rw [if_pos finite]
  obtain ⟨m, q⟩ := x.magnitude
  dsimp only
  split
  · rw [wholePart_neg, wholePart_dyadic]
  · rw [wholePart_dyadic]

theorem saturate_eq (finite : x.isFinite = true) (low high : ℤ) :
    x.saturate low high = max low (min high (wholePart x.toRat)) := by
  have not_last : x.exponentField ≠ 2047 := by simpa [isFinite] using finite
  simp [saturate, isNaN, isInfinite, not_last, truncate_eq finite]

theorem dyadic_eq_natCast_iff (m : ℕ) (q : ℤ) :
    (decide (0 ≤ q) || m % (1 <<< (-q).toNat) == 0) = true ↔ ∃ n : ℕ, (m * 2 ^ q : ℚ) = n := by
  simp only [Bool.or_eq_true, decide_eq_true_eq, beq_iff_eq, Nat.one_shiftLeft]
  by_cases up : 0 ≤ q
  · obtain ⟨k, rfl⟩ := Int.eq_ofNat_of_zero_le up
    exact iff_of_true (.inl up) ⟨m * 2 ^ k, by push_cast [zpow_natCast]; rfl⟩
  · obtain ⟨k, same⟩ := Int.eq_ofNat_of_zero_le (show 0 ≤ -q by omega)
    have half : (m * 2 ^ q : ℚ) = m / (2 ^ k : ℕ) := by
      rw [show q = -(k : ℤ) by omega, zpow_neg, zpow_natCast, div_eq_mul_inv, Nat.cast_pow,
        Nat.cast_ofNat]
    rw [same, Int.toNat_natCast, half, or_iff_right up, ← Nat.dvd_iff_mod_eq_zero]
    constructor
    · rintro ⟨n, rfl⟩
      exact ⟨n, by rw [Nat.cast_mul, mul_div_cancel_left₀ _ (by positivity)]⟩
    · rintro ⟨n, whole⟩
      rw [div_eq_iff (by positivity)] at whole
      exact ⟨n, by rw [Nat.mul_comm]; exact_mod_cast whole⟩

theorem isIntegral_iff (finite : x.isFinite = true) :
    x.isIntegral = true ↔ ∃ n : ℤ, x.toRat = n := by
  unfold isIntegral toRat
  rw [finite, Bool.true_and]
  obtain ⟨m, q⟩ := x.magnitude
  dsimp only
  rw [dyadic_eq_natCast_iff]
  have positive : (0 : ℚ) ≤ m * 2 ^ q := by positivity
  constructor
  · rintro ⟨n, whole⟩
    rw [whole]
    split
    · exact ⟨-n, by push_cast; rfl⟩
    · exact ⟨n, rfl⟩
  · rintro ⟨n, whole⟩
    -- Whatever the sign, what is in front of it is not negative.
    refine ⟨n.natAbs, ?_⟩
    rw [Nat.cast_natAbs, Int.cast_abs, ← whole]
    split
    · rw [abs_neg, abs_of_nonneg positive]
    · rw [abs_of_nonneg positive]

/-- The double of an integer above the range of sixty-four signed bits is above it as well. -/
theorem le_truncate_ofInt {n : ℕ} (low : 2 ^ 63 ≤ n) (high : n < 2 ^ 64) :
    2 ^ 63 ≤ (ofInt n).truncate := by
  have exponent : 1086 ≤ (ofInt n).exponentField := by
    rw [← (key_fields (ofInt n)).2, key_ofInt low high, fractionCount]
    have least := (units_bounds low high).1
    omega
  have significand : 2 ^ 52 ≤ significandOf (ofInt n).fractionField (ofInt n).exponentField := by
    rw [significandOf, if_neg (by omega), fractionCount]
    omega
  obtain ⟨k, shift⟩ : ∃ k : ℕ,
      (((ofInt n).exponentField - 1 : ℕ) : ℤ) - 1074 = ((11 + k : ℕ) : ℤ) :=
    ⟨(ofInt n).exponentField - 1 - 1074 - 11, by omega⟩
  have great : 2 ^ 52 * 2 ^ 11 ≤
      significandOf (ofInt n).fractionField (ofInt n).exponentField * 2 ^ (11 + k) :=
    Nat.mul_le_mul significand (Nat.pow_le_pow_right (by decide) (by omega))
  rw [truncate, if_pos (isFinite_ofInt low high), magnitude_eq, shift]
  simp only [isNegative_ofInt low high, Bool.false_eq_true, if_false, Int.natCast_nonneg, if_true,
    Int.toNat_natCast, Nat.shiftLeft_eq]
  exact_mod_cast great

end Binary64

namespace Json

def Number.toRat : Number → ℚ
  | .int i _ => i
  | .float x _ => x.toRat

/-- A number as whole seconds. -/
def Number.seconds (n : Number) : ℤ := max Word.least64 (min Word.greatest64 (wholePart n.toRat))

end Json

end ScriptGate
