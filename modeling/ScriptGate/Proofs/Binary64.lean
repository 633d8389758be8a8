import ScriptGate.Proofs.Decimal.Shortest

/-!
# Integers that become doubles

An unsigned integer of sixty-four bits whose highest bit is set is rounded to a multiple of
`2 ^ 11`, a half to the even multiple. `units` is that multiple; the conversion yields the double of
it, which is finite and the one double whose edges the integer lies between (`rounds_ofInt`).
-/

namespace ScriptGate.Binary64

open Decimal
open Float.Model
open Float.Model.UnpackedFloat (Accuracy ExtendedMantissa packComponents roundWithAccuracy
  shiftToTargetExponent)

/-- The nearest multiple of `2 ^ 11`, counted in those, a half going to the even one. -/
def units (n : Nat) : Nat :=
  if n / 2 ^ 10 % 2 = 0 then n / 2 ^ 11
  else if n % 2 ^ 10 = 0 then n / 2 ^ 11 + n / 2 ^ 11 % 2
  else n / 2 ^ 11 + 1

variable {n : Nat}

theorem units_bounds (low : 2 ^ 63 ≤ n) (high : n < 2 ^ 64) :
    2 ^ 52 ≤ units n ∧ units n ≤ 2 ^ 53 := by
  unfold units
  split
  · omega
  · split <;> omega

theorem units_near (n : Nat) :
    2 ^ 11 * units n ≤ n + 2 ^ 10 ∧ n ≤ 2 ^ 11 * units n + 2 ^ 10 ∧
      (units n % 2 ≠ 0 → 2 ^ 11 * units n < n + 2 ^ 10 ∧ n < 2 ^ 11 * units n + 2 ^ 10) := by
  unfold units
  split
  · omega
  · split <;> omega

/-! ### Rounding -/

/-- Shifting a mantissa keeps the highest bit that is lost, and whether any other was set. -/
theorem shift_exact (m k : Nat) :
    (ExtendedMantissa.mk m false false >>> (k + 1)) =
      ⟨m / 2 ^ (k + 1), m / 2 ^ k % 2 != 0, m % 2 ^ k != 0⟩ := by
  induction k with
  | zero =>
    simp [HShiftRight.hShiftRight, Nat.repeat, ExtendedMantissa.shiftRightOne, Nat.mod_one]
  | succ k ih =>
    have step : (ExtendedMantissa.mk m false false >>> (k + 1 + 1)) =
        (ExtendedMantissa.mk m false false >>> (k + 1)).shiftRightOne := rfl
    rw [step, ih, ExtendedMantissa.shiftRightOne]
    have halves : m / 2 ^ (k + 1) / 2 = m / 2 ^ (k + 1 + 1) := by
      rw [Nat.div_div_eq_div_mul, ← Nat.pow_succ]
    have rests : m % 2 ^ (k + 1) = m / 2 ^ k % 2 * 2 ^ k + m % 2 ^ k := by
      rw [Nat.pow_succ, Nat.mod_mul, Nat.mul_comm, Nat.add_comm]
    simp only [halves, ExtendedMantissa.mk.injEq, true_and]
    rw [rests, Bool.eq_iff_iff]
    rcases Nat.mod_two_eq_zero_or_one (m / 2 ^ k) with even | odd
    · simp [even]
    · simp [odd]

theorem roundedMantissa_eq (m : Nat) (half sticky : Bool) :
    (ExtendedMantissa.mk m half sticky).roundedMantissa =
      if half then (if sticky then m + 1 else m + m % 2) else m := by
  cases half <;> cases sticky <;> rfl

theorem rounded_shift (n : Nat) :
    (ExtendedMantissa.mk (n * 2 ^ 53) false false >>> 64).roundedMantissa = units n := by
  have whole : n * 2 ^ 53 / 2 ^ 64 = n / 2 ^ 11 := by omega
  have half : n * 2 ^ 53 / 2 ^ 63 = n / 2 ^ 10 := by omega
  have rest : n * 2 ^ 53 % 2 ^ 63 = n % 2 ^ 10 * 2 ^ 53 := by omega
  rw [shift_exact _ 63, whole, half, rest, units, roundedMantissa_eq]
  rcases Nat.mod_two_eq_zero_or_one (n / 2 ^ 10) with even | odd
  · rw [even]
    rfl
  · by_cases tie : n % 2 ^ 10 = 0
    · rw [odd, tie]
      rfl
    · have sticky : (n % 2 ^ 10 * 2 ^ 53 != 0) = true := by simpa using tie
      rw [odd, sticky, if_neg tie]
      rfl

theorem log2_eq {m k : Nat} (low : 2 ^ k ≤ m) (high : m < 2 ^ (k + 1)) : m.log2 = k := by
  have positive : m ≠ 0 := by
    rintro rfl
    simp at low
  exact (Nat.log2_eq_iff positive).mpr ⟨low, high⟩

/-- A mantissa is shifted until fifty-three of its bits are left. -/
theorem shiftToTargetExponent_eq {m k : Nat} {f e : Int} (low : 2 ^ k ≤ m) (high : m < 2 ^ (k + 1))
    (target : f + k = e + 52) (whole : 0 ≤ e) (wide : f ≤ e) :
    shiftToTargetExponent Format.binary64 m f .exact =
      (ExtendedMantissa.mk m false false >>> (k - 52), e) := by
  have width : Format.binary64.mantissaBits = 53 := rfl
  have least : Format.binary64.minExponent = -1074 := rfl
  have aimed : Format.binary64.targetExponent (totalExponent m f) = e := by
    rw [Format.targetExponent, totalExponent, log2_eq low high, width, least]
    omega
  have amount : (e - f).toNat = k - 52 := by omega
  have sum : f + ((k - 52 : Nat) : Int) = e := by omega
  rw [shiftToTargetExponent, aimed, UnpackedFloat.shiftToExponent, amount, sum]
  rfl

/-- Where rounding reaches `2 ^ 53` units, the exponent goes up by one. -/
theorem roundWithAccuracy_eq (low : 2 ^ 63 ≤ n) (high : n < 2 ^ 64) :
    ∃ (m e : Nat) (positive : 0 < m),
      roundWithAccuracy Format.binary64 .positive (n * 2 ^ 53) (-53) .exact =
        .finite .positive m e positive ∧
      2 ^ 52 ≤ m ∧ m < 2 ^ 53 ∧ e ≤ 12 ∧ (e + 1074) * 2 ^ 52 + m = 1085 * 2 ^ 52 + units n := by
  have first := shiftToTargetExponent_eq (m := n * 2 ^ 53) (k := 116) (f := -53) (e := 11)
    (by omega) (by omega) (by decide) (by decide) (by decide)
  obtain ⟨least, most⟩ := units_bounds low high
  rw [roundWithAccuracy, first]
  dsimp only
  rw [rounded_shift]
  by_cases carry : units n = 2 ^ 53
  · have second := shiftToTargetExponent_eq (m := units n) (k := 53) (f := 11) (e := 12)
      (by omega) (by omega) (by decide) (by decide) (by decide)
    have half : (ExtendedMantissa.mk (2 ^ 53) false false >>> 1).mantissa = 2 ^ 52 := rfl
    rw [second, carry, dif_neg (by rw [half]; decide)]
    exact ⟨2 ^ 52, 12, by decide, rfl, by decide, by decide, by decide, by decide⟩
  · have second := shiftToTargetExponent_eq (m := units n) (k := 52) (f := 11) (e := 11)
      (by omega) (by omega) (by decide) (by decide) (by decide)
    have kept : (ExtendedMantissa.mk (units n) false false >>> (52 - 52)).mantissa = units n := rfl
    rw [second, dif_neg (by rw [kept]; omega)]
    exact ⟨units n, 11, by omega, rfl, by omega, by omega, by decide, by omega⟩

/-! ### Bits -/

theorem toNat_packComponents (e : BitVec 11) (m : BitVec 52) :
    (packComponents Format.binary64 .positive e m).toNat = e.toNat * 2 ^ 52 + m.toNat := by
  have sign : (UnpackedFloat.Sign.toBitVec .positive).toNat = 0 := rfl
  have bound := m.isLt
  rw [packComponents, BitVec.toNat_append, BitVec.toNat_append, sign, Nat.zero_shiftLeft,
    Nat.zero_or, ← Nat.shiftLeft_add_eq_or_of_lt bound, Nat.shiftLeft_eq]

theorem pack_eq {m e : Nat} (positive : 0 < m) (low : 2 ^ 52 ≤ m) (high : m < 2 ^ 53)
    (small : e ≤ 12) : UnpackedFloat.pack Format.binary64 (.finite .positive m e positive) =
      packComponents Format.binary64 .positive (BitVec.ofNat 11 (e + 1075))
        (BitVec.ofNat 52 m) := by
  have bits : m.log2 + 1 = Format.binary64.mantissaBits := by
    rw [log2_eq low high]
    rfl
  have biased : ((e : Int) + Format.binary64.exponentBias + (52 : Nat)).toNat = e + 1075 := by
    have bias : Format.binary64.exponentBias = 1023 := rfl
    omega
  have below : ¬ 2 ^ 11 ≤ e + 1075 + 1 := by omega
  delta UnpackedFloat.pack
  dsimp only
  rw [biased, if_neg below, if_pos bits]

theorem ofNat_eq (low : 2 ^ 63 ≤ n) (high : n < 2 ^ 64) :
    ∃ m e : Nat, (Float.ofNat n).toModel.toBits.toBitVec =
        packComponents Format.binary64 .positive (BitVec.ofNat 11 (e + 1075)) (BitVec.ofNat 52 m) ∧
      2 ^ 52 ≤ m ∧ m < 2 ^ 53 ∧ e ≤ 12 ∧ (e + 1074) * 2 ^ 52 + m = 1085 * 2 ^ 52 + units n := by
  obtain ⟨m, e, positive, rounded, least, most, small, sum⟩ := roundWithAccuracy_eq low high
  have large : ¬ (n < 2 ^ 53 ∧ 0 ≤ 22) := by omega
  have model : Float.ofNat n = ⟨Float.Model.ofScientific n 0⟩ := by
    show Float.ofScientific n false 0 = _
    rw [Float.ofScientific, dif_neg large]
    rfl
  have product : n <<< Format.binary64.mantissaBits * 10 ^ (0 : Int).toNat = n * 2 ^ 53 := by
    rw [Nat.shiftLeft_eq, Int.toNat_zero, Nat.pow_zero, Nat.mul_one]
    rfl
  have exponent : -(Format.binary64.mantissaBits : Int) + 0 = -53 := rfl
  have unpacked :
      UnpackedFloat.ofScientific Format.binary64 n 0 = .finite .positive m e positive := by
    rw [UnpackedFloat.ofScientific, dif_neg (by omega), if_neg (by decide), if_neg,
      if_pos (by decide)]
    · show roundWithAccuracy Format.binary64 .positive
        (n <<< Format.binary64.mantissaBits * 10 ^ (0 : Int).toNat)
        (-(Format.binary64.mantissaBits : Int) + 0) .exact = _
      rw [product, exponent]
      exact rounded
    · have range : (0 : Int) ≤ 2 ^ Format.binary64.exponentBits := by decide
      omega
  refine ⟨m, e, ?_, least, most, small, sum⟩
  rw [model, ← pack_eq positive least most small, ← unpacked]
  rfl

theorem bits_ofInt (low : 2 ^ 63 ≤ n) (high : n < 2 ^ 64) :
    (ofInt n).bits.toNat = 1085 * 2 ^ 52 + units n := by
  have carried (e m : Nat) (least : 2 ^ 52 ≤ m) :
      (e + 1075) * 2 ^ 52 + (m - 2 ^ 52) = (e + 1074) * 2 ^ 52 + m := by omega
  obtain ⟨m, e, packed, least, most, small, sum⟩ := ofNat_eq low high
  have exponent : (BitVec.ofNat 11 (e + 1075)).toNat = e + 1075 := by
    rw [BitVec.toNat_ofNat]
    omega
  have fraction : (BitVec.ofNat 52 m).toNat = m - 2 ^ 52 := by
    rw [BitVec.toNat_ofNat]
    omega
  have not_last : BitVec.ofNat 11 (e + 1075) ≠ -1#11 := fun equal => by
    have equal := congrArg BitVec.toNat equal
    rw [exponent] at equal
    simp at equal
    omega
  have number : (Float.ofNat n).isNaN = false := by
    show (UnpackedFloat.unpack Format.binary64 _).isNaN = false
    rw [packed]
    delta UnpackedFloat.unpack
    dsimp only
    rw [UnpackedFloat.unpackExponent_packComponents, if_neg not_last]
    by_cases subnormal : BitVec.ofNat 11 (e + 1075) = 0#11
    · rw [if_pos subnormal]
      by_cases zero : UnpackedFloat.unpackMantissa (packComponents Format.binary64 .positive
          (BitVec.ofNat 11 (e + 1075)) (BitVec.ofNat 52 m)) = 0#52
      · rw [dif_pos zero]
        rfl
      · rw [dif_neg zero]
        rfl
    · rw [if_neg subnormal]
      rfl
  have bits : (ofInt n).bits.toNat = (Float.ofNat n).toModel.toBits.toBitVec.toNat := by
    show (ofFloat (Float.ofNat n)).bits.toNat = _
    rw [ofFloat, number]
    rfl
  rw [bits, packed, toNat_packComponents, exponent, fraction, carried e m least, sum]

theorem isNegative_ofInt (low : 2 ^ 63 ≤ n) (high : n < 2 ^ 64) :
    (ofInt n).isNegative = false := by
  have bounds := units_bounds low high
  rw [isNegative, decide_eq_false_iff_not, UInt64.le_iff_toNat_le, bits_ofInt low high]
  show ¬ 2 ^ 63 ≤ _
  omega

theorem key_ofInt (low : 2 ^ 63 ≤ n) (high : n < 2 ^ 64) :
    key (ofInt n) = 1085 * 2 ^ 52 + units n := by
  have bits := bits_eq (ofInt n)
  have total := bits_ofInt low high
  rw [isNegative_ofInt low high, if_neg (by decide), Nat.zero_add, total] at bits
  exact bits.symm

theorem isFinite_ofInt (low : 2 ^ 63 ≤ n) (high : n < 2 ^ 64) : (ofInt n).isFinite = true := by
  have bounds := units_bounds low high
  have exponent := (key_fields (ofInt n)).2
  rw [key_ofInt low high] at exponent
  have below : (ofInt n).exponentField ≠ 2047 := by
    rw [← exponent, fractionCount]
    omega
  simpa [isFinite] using below

/-! ### Edges -/

/-- The edges around a number of units. They are closer below the first double of an order, and
wider above it. -/
theorem edges_of_units {u : Nat} (least : 2 ^ 52 ≤ u) (most : u ≤ 2 ^ 53) :
    ∃ a b, (a = 4 * u - 2 ∨ u = 2 ^ 52 ∧ a = 4 * u - 1) ∧ (b = 4 * u + 2 ∨ b = 4 * u + 4) ∧
      edge (1085 * 2 ^ 52 + u) = a * 2 ^ 1085 ∧ edge (1085 * 2 ^ 52 + u + 1) = b * 2 ^ 1085 := by
  rw [edge_succ, edge]
  by_cases carry : u = 2 ^ 53
  · have fraction : (1085 * 2 ^ 52 + u) % fractionCount = 0 := by
      rw [fractionCount]
      omega
    have exponent : (1085 * 2 ^ 52 + u) / fractionCount = 1087 := by
      rw [fractionCount]
      omega
    have significand : significandOf 0 1087 = 2 ^ 52 := rfl
    have doubled : (2 : Nat) ^ (1087 - 1) = 2 * 2 ^ 1085 := by rw [Nat.mul_comm, ← Nat.pow_succ]
    have narrow : (0 : Nat) = 0 ∧ 1 < 1087 := by decide
    refine ⟨4 * u - 2, 4 * u + 4, .inl rfl, .inr rfl, ?_, ?_⟩
    · rw [fraction, exponent, lowerEdge, significand, if_pos narrow, doubled, ← Nat.mul_assoc,
        carry]
      exact congrArg (· * 2 ^ 1085) (by decide)
    · rw [fraction, exponent, upperEdge, significand, doubled, ← Nat.mul_assoc, carry]
      exact congrArg (· * 2 ^ 1085) (by decide)
  · have fraction : (1085 * 2 ^ 52 + u) % fractionCount = u - 2 ^ 52 := by
      rw [fractionCount]
      omega
    have exponent : (1085 * 2 ^ 52 + u) / fractionCount = 1086 := by
      rw [fractionCount]
      omega
    have significand : significandOf (u - 2 ^ 52) 1086 = u := by
      rw [significandOf, if_neg (Nat.succ_ne_zero 1085), fractionCount]
      omega
    rw [fraction, exponent, lowerEdge, upperEdge, significand, Nat.add_sub_cancel 1085 1]
    by_cases first : u = 2 ^ 52
    · have narrow : u - 2 ^ 52 = 0 ∧ 1 < 1086 := by omega
      exact ⟨4 * u - 1, 4 * u + 2, .inr ⟨first, rfl⟩, .inl rfl, by rw [if_pos narrow], rfl⟩
    · have wide : ¬ (u - 2 ^ 52 = 0 ∧ 1 < 1086) := by omega
      exact ⟨4 * u - 2, 4 * u + 2, .inl rfl, .inl rfl, by rw [if_neg wide], rfl⟩

theorem cast_edge_units (a : Nat) :
    ((a * 2 ^ 1085 : Nat) : ℚ) * 2 ^ (-1076 : ℤ) = (2 ^ 9 * a : Nat) := by
  have power : (2 : ℚ) ^ 1085 * 2 ^ (-1076 : ℤ) = 2 ^ 9 := by
    rw [← zpow_natCast, ← zpow_natCast, ← zpow_add₀ (by norm_num)]
    rfl
  rw [Nat.cast_mul, Nat.cast_pow, mul_assoc, Nat.cast_ofNat, power, Nat.cast_mul, Nat.cast_pow,
    Nat.cast_ofNat, mul_comm]

/-- The double of a great integer is the one that the integer rounds to. -/
theorem rounds_ofInt (low : 2 ^ 63 ≤ n) (high : n < 2 ^ 64) : Rounds (key (ofInt n)) n := by
  obtain ⟨least, most⟩ := units_bounds low high
  obtain ⟨above, below, strict⟩ := units_near n
  obtain ⟨a, b, at_low, at_high, lower, upper⟩ := edges_of_units least most
  have parity : (1085 * 2 ^ 52 + units n) % 2 = units n % 2 := by omega
  rw [key_ofInt low high, Rounds, Within, parity, lower, upper, cast_edge_units, cast_edge_units]
  clear lower upper
  simp only [decide_eq_true_eq, Nat.cast_le, Nat.cast_lt]
  split
  · omega
  · rename_i odd
    have strict := strict odd
    omega

end ScriptGate.Binary64
