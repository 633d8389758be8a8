import ScriptGate.Decimal.Unsigned
import ScriptGate.Proofs.Decimal.Digits
import ScriptGate.Proofs.Json.Tokens

/-!
# Numerals of integers

Which texts write an integer, and which number that is. A reader with a bound takes exactly the
numerals of the numbers below it, however many zeros there are in front, so what it refuses writes
no number or one that is too large.
-/

namespace ScriptGate.Decimal

variable {bound n m : Nat} {ds cs : List Char}

/-- A text that writes a natural number: one or more digits, a plus in front allowed. -/
inductive WritesNat : List Char → Nat → Prop where
  | digits {ds : List Char} (digits : AllDigits ds) (nonempty : ds ≠ []) :
      WritesNat ds (readDigits ds)
  | plus {ds : List Char} (digits : AllDigits ds) (nonempty : ds ≠ []) :
      WritesNat ('+' :: ds) (readDigits ds)

/-- A text that writes an integer: a natural number, or one or more digits behind a minus. -/
inductive WritesInt : List Char → ℤ → Prop where
  | natural {cs : List Char} {n : Nat} (writes : WritesNat cs n) : WritesInt cs n
  | minus {ds : List Char} (digits : AllDigits ds) (nonempty : ds ≠ []) :
      WritesInt ('-' :: ds) (-(readDigits ds : ℤ))

/-! ### Digits -/

theorem nextDigit_eq (n : Nat) (d : Char) :
    n * 10 + (d.toNat - 0x30) = 10 * n + (d.toNat - '0'.toNat) := by
  rw [Nat.mul_comm]
  rfl

/-- A number stays in range while its digits are read, since it only grows. -/
theorem unsignedDigits_eq (digits : AllDigits ds) (small : Nat.ofDigitChars 10 ds n < bound) :
    unsignedDigits bound n ds = .ok (Nat.ofDigitChars 10 ds n) := by
  induction ds generalizing n with
  | nil => rfl
  | cons d rest ih =>
    rw [Nat.ofDigitChars_cons] at small ⊢
    have grows := Json.le_ofDigitChars rest (10 * n + (d.toNat - '0'.toNat))
    rw [unsignedDigits, digits d List.mem_cons_self]
    simp only [Bool.not_true, Bool.false_eq_true, if_false]
    rw [nextDigit_eq, if_pos (by omega), ih (fun e member => digits e (List.mem_cons_of_mem d member))
      small]

theorem of_unsignedDigits (read : unsignedDigits bound n ds = .ok m) :
    AllDigits ds ∧ m = Nat.ofDigitChars 10 ds n ∧ (ds ≠ [] → m < bound) := by
  induction ds generalizing n with
  | nil =>
    cases read
    exact ⟨fun _ member => absurd member List.not_mem_nil, rfl, fun nonempty => absurd rfl nonempty⟩
  | cons d rest ih =>
    unfold unsignedDigits at read
    split at read
    · cases read
    · rename_i digit
      rw [Bool.not_eq_true, Bool.not_eq_false'] at digit
      dsimp only at read
      split at read
      · rename_i below
        obtain ⟨digits, rfl, least⟩ := ih read
        have whole : AllDigits (d :: rest) := fun e member =>
          (List.mem_cons.mp member).elim (fun same => same ▸ digit) (digits e)
        refine ⟨whole, by rw [Nat.ofDigitChars_cons, nextDigit_eq], fun _ => ?_⟩
        -- Where no digit follows, the number is the one that has just been compared.
        cases rest with
        | nil => exact below
        | cons next others => exact least (List.cons_ne_nil next others)
      · cases read

theorem unsignedDigits_eq_ok_iff (nonempty : ds ≠ []) :
    unsignedDigits bound 0 ds = .ok m ↔ AllDigits ds ∧ m = readDigits ds ∧ m < bound := by
  constructor
  · intro read
    obtain ⟨digits, value, least⟩ := of_unsignedDigits read
    exact ⟨digits, value, least nonempty⟩
  · rintro ⟨digits, rfl, below⟩
    exact unsignedDigits_eq digits below

/-! ### Natural numbers -/

theorem AllDigits.ne_plus (digits : AllDigits ds) : ds.head? ≠ some '+' := by
  intro first
  exact absurd (digits '+' (List.mem_of_head? first)) (by decide)

/-- What is read below a bound are the numerals of the numbers below it. -/
theorem unsigned_eq_ok_iff {s : String} :
    unsigned bound s = .ok n ↔ WritesNat s.toList n ∧ n < bound := by
  unfold unsigned
  split
  · rename_i empty
    simp only [reduceCtorEq, false_iff, not_and]
    intro writes
    rw [empty] at writes
    cases writes with
    | digits digits nonempty => exact absurd rfl nonempty
  · rename_i alone
    simp only [reduceCtorEq, false_iff, not_and]
    intro writes
    rw [alone] at writes
    cases writes with
    | digits digits nonempty => exact absurd rfl digits.ne_plus
    | plus digits nonempty => exact absurd rfl nonempty
  · rename_i rest behind shape
    have nonempty : rest ≠ [] := fun none => behind (by rw [none])
    rw [shape, unsignedDigits_eq_ok_iff nonempty]
    constructor
    · rintro ⟨digits, rfl, below⟩
      exact ⟨.plus digits nonempty, below⟩
    · rintro ⟨writes, below⟩
      cases writes with
      | digits digits => exact absurd rfl digits.ne_plus
      | plus digits => exact ⟨digits, rfl, below⟩
  · rename_i nonempty alone signed
    rw [unsignedDigits_eq_ok_iff nonempty]
    constructor
    · rintro ⟨digits, rfl, below⟩
      exact ⟨.digits digits nonempty, below⟩
    · rintro ⟨writes, below⟩
      generalize chars : s.toList = cs at writes signed
      cases writes with
      | digits digits => exact ⟨digits, rfl, below⟩
      | plus => exact absurd rfl (signed _)

/-! ### Integers -/

theorem AllDigits.ne_minus (digits : AllDigits ds) : ds.head? ≠ some '-' := by
  intro first
  exact absurd (digits '-' (List.mem_of_head? first)) (by decide)

variable {i : ℤ}

theorem writesInt_minus_iff : WritesInt ('-' :: ds) i ↔
    ds ≠ [] ∧ AllDigits ds ∧ i = -(readDigits ds : ℤ) := by
  constructor
  · intro writes
    cases writes with
    | natural writes =>
      cases writes with
      | digits digits => exact absurd rfl digits.ne_minus
    | minus digits nonempty => exact ⟨nonempty, digits, rfl⟩
  · rintro ⟨nonempty, digits, rfl⟩
    exact .minus digits nonempty

theorem writesInt_plus_iff : WritesInt ('+' :: ds) i ↔
    ds ≠ [] ∧ AllDigits ds ∧ i = (readDigits ds : ℤ) := by
  constructor
  · intro writes
    cases writes with
    | natural writes =>
      cases writes with
      | digits digits => exact absurd rfl digits.ne_plus
      | plus digits nonempty => exact ⟨nonempty, digits, rfl⟩
  · rintro ⟨nonempty, digits, rfl⟩
    exact .natural (.plus digits nonempty)

theorem writesInt_unsigned_iff (no_minus : ∀ ds, cs ≠ '-' :: ds) (no_plus : ∀ ds, cs ≠ '+' :: ds) :
    WritesInt cs i ↔ cs ≠ [] ∧ AllDigits cs ∧ i = (readDigits cs : ℤ) := by
  constructor
  · intro writes
    cases writes with
    | natural writes =>
      cases writes with
      | digits digits nonempty => exact ⟨nonempty, digits, rfl⟩
      | plus => exact absurd rfl (no_plus _)
    | minus => exact absurd rfl (no_minus _)
  · rintro ⟨nonempty, digits, rfl⟩
    exact .natural (.digits digits nonempty)

/-! ### Printed numbers -/

theorem writesNat_toString (n : Nat) : WritesNat (toString n).toList n := by
  have writes : WritesNat (natDigits n) (readDigits (natDigits n)) :=
    .digits (allDigits_natDigits n) Nat.toDigits_ne_nil
  rw [readDigits_natDigits] at writes
  rwa [show (toString n).toList = natDigits n from Nat.toList_repr]

theorem unsigned_toString (small : n < bound) : unsigned bound (toString n) = .ok n :=
  unsigned_eq_ok_iff.mpr ⟨writesNat_toString n, small⟩

end ScriptGate.Decimal
