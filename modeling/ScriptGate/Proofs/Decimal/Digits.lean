import Mathlib.Algebra.Field.Rat
import Mathlib.Algebra.Order.Field.Power
import Mathlib.Data.List.TakeWhile
import Mathlib.Tactic.FieldSimp
import Mathlib.Tactic.Ring
import ScriptGate.Decimal.Digits

/-!
# The number that a numeral writes

`reading` gives the number that a text writes, whichever form it has. A style writes a number in
such a way that its text reads as that number, so numbers of one text are equal.
-/

namespace ScriptGate.Decimal

/-- The number of a value and an exponent. -/
def Digits.toRat (d : Digits) : ℚ := d.value * 10 ^ d.exponent

theorem Digits.toRat_stripZeros (d : Digits) (fuel : Nat) :
    (d.stripZeros fuel).toRat = d.toRat := by
  induction fuel generalizing d with
  | zero => rfl
  | succ fuel ih =>
    rw [stripZeros]
    split
    · rename_i ends
      rw [ih, toRat, toRat, zpow_add_one₀ (by norm_num)]
      have value : (d.value : ℚ) = (d.value / 10 : Nat) * 10 := by
        exact_mod_cast (Nat.div_mul_cancel (Nat.dvd_of_mod_eq_zero ends.2)).symm
      rw [value]
      ring
    · rfl

/-! ### Reading a numeral -/

def readDigits (cs : List Char) : Nat := Nat.ofDigitChars 10 cs 0

/-- The exponent behind its mark: a sign and digits. -/
def readExponent : List Char → ℤ
  | '-' :: ds => -(readDigits ds : ℤ)
  | _ :: ds => readDigits ds
  | [] => 0

/-- The number that digits write, with a point among them or without one. -/
def significand (cs : List Char) : ℚ :=
  let whole := cs.takeWhile (· ≠ '.')
  let fraction := (cs.dropWhile (· ≠ '.')).drop 1
  readDigits (whole ++ fraction) * 10 ^ (-(fraction.length : ℤ))

/-- The number that a text without a sign writes: a significand, and an exponent behind an `e` if
there is one. -/
def reading (cs : List Char) : ℚ :=
  significand (cs.takeWhile (· ≠ 'e')) * 10 ^ readExponent ((cs.dropWhile (· ≠ 'e')).drop 1)

def AllDigits (cs : List Char) : Prop := ∀ c ∈ cs, c.isDigit = true

variable {whole fraction power : List Char}

theorem AllDigits.append (first : AllDigits whole) (second : AllDigits fraction) :
    AllDigits (whole ++ fraction) := fun c member =>
  (List.mem_append.mp member).elim (first c) (second c)

theorem allDigits_zeros (n : Nat) : AllDigits (List.replicate n '0') := fun c member => by
  rw [List.eq_of_mem_replicate member]
  rfl

theorem allDigits_natDigits (n : Nat) : AllDigits (natDigits n) := fun _ member =>
  Nat.isDigit_of_mem_toDigits (by decide) (by decide) member

theorem AllDigits.ne (digits : AllDigits whole) {c mark : Char} (noDigit : mark.isDigit = false)
    (member : c ∈ whole) : c ≠ mark := by
  rintro rfl
  exact absurd (digits c member) (by simp [noDigit])

theorem split_append {cs : List Char} {mark : Char} (unmarked : ∀ c ∈ cs, c ≠ mark)
    (rest : List Char) :
    (cs ++ mark :: rest).takeWhile (· ≠ mark) = cs ∧
      (cs ++ mark :: rest).dropWhile (· ≠ mark) = mark :: rest := by
  have passed : ∀ c ∈ cs, decide (c ≠ mark) = true := fun c member =>
    decide_eq_true (unmarked c member)
  constructor
  · rw [List.takeWhile_append_of_pos passed, List.takeWhile_cons_of_neg (by simp), List.append_nil]
  · rw [List.dropWhile_append_of_pos passed, List.dropWhile_cons_of_neg (by simp)]

theorem split_unmarked {cs : List Char} {mark : Char} (unmarked : ∀ c ∈ cs, c ≠ mark) :
    cs.takeWhile (· ≠ mark) = cs ∧ cs.dropWhile (· ≠ mark) = [] := by
  have passed : ∀ c ∈ cs, decide (c ≠ mark) = true := fun c member =>
    decide_eq_true (unmarked c member)
  exact ⟨List.takeWhile_eq_self_iff.mpr passed, List.dropWhile_eq_nil_iff.mpr passed⟩

theorem significand_point (digits : AllDigits whole) (fraction : List Char) :
    significand (whole ++ '.' :: fraction) =
      readDigits (whole ++ fraction) * 10 ^ (-(fraction.length : ℤ)) := by
  obtain ⟨before, behind⟩ :=
    split_append (fun c => digits.ne (show '.'.isDigit = false by decide)) fraction
  rw [significand, before, behind]
  rfl

theorem significand_whole (digits : AllDigits whole) : significand whole = readDigits whole := by
  obtain ⟨before, behind⟩ := split_unmarked fun c => digits.ne (show '.'.isDigit = false by decide)
  rw [significand, before, behind]
  simp

theorem reading_plain {cs : List Char} (plain : ∀ c ∈ cs, c ≠ 'e') :
    reading cs = significand cs := by
  obtain ⟨before, behind⟩ := split_unmarked plain
  rw [reading, before, behind]
  simp [readExponent]

theorem reading_exponent {cs : List Char} (plain : ∀ c ∈ cs, c ≠ 'e') (power : List Char) :
    reading (cs ++ 'e' :: power) = significand cs * 10 ^ readExponent power := by
  obtain ⟨before, behind⟩ := split_append plain power
  rw [reading, before, behind]
  rfl

theorem reading_point (digits : AllDigits whole) (behind : AllDigits fraction) :
    reading (whole ++ '.' :: fraction) =
      readDigits (whole ++ fraction) * 10 ^ (-(fraction.length : ℤ)) := by
  rw [reading_plain, significand_point digits]
  intro c member
  rcases List.mem_append.mp member with before | later
  · exact digits.ne (by decide) before
  · rcases List.mem_cons.mp later with rfl | later
    · decide
    · exact behind.ne (by decide) later

theorem reading_whole (digits : AllDigits whole) : reading whole = readDigits whole := by
  rw [reading_plain fun c => digits.ne (by decide), significand_whole digits]

theorem readDigits_zeros_append (n : Nat) (ds : List Char) :
    readDigits (List.replicate n '0' ++ ds) = readDigits ds := by
  rw [readDigits, Nat.ofDigitChars_append, Nat.ofDigitChars_replicate_zero, Nat.mul_zero,
    readDigits]

theorem readDigits_append_zeros (ds : List Char) (n : Nat) :
    readDigits (ds ++ List.replicate n '0') = 10 ^ n * readDigits ds := by
  rw [readDigits, Nat.ofDigitChars_append, Nat.ofDigitChars_replicate_zero, readDigits]

theorem readDigits_natDigits (n : Nat) : readDigits (natDigits n) = n :=
  Nat.ofDigitChars_ten_toDigits

/-! ### What styles write -/

namespace Style

variable (st : Style) {ds : List Char} {e : ℤ}

def scaled (ds : List Char) (e : ℤ) : ℚ := readDigits ds * 10 ^ (e + 1 - ds.length)

theorem reading_positional (digits : AllDigits ds) :
    reading (st.writePositional ds e) = scaled ds e := by
  unfold writePositional
  split
  · rename_i below
    -- Zeros stand in front of the digits, behind the point.
    have text : '0' :: '.' :: List.replicate (-e - 1).toNat '0' ++ ds =
        List.replicate 1 '0' ++ '.' :: (List.replicate (-e - 1).toNat '0' ++ ds) := rfl
    have places : -((List.replicate (-e - 1).toNat '0' ++ ds).length : ℤ) = e + 1 - ds.length := by
      rw [List.length_append, List.length_replicate]
      omega
    rw [text, reading_point (allDigits_zeros 1) ((allDigits_zeros _).append digits),
      readDigits_zeros_append, readDigits_zeros_append, places, scaled]
  · rename_i above
    dsimp only
    split
    · rename_i short
      -- Zeros fill the digits up to the ones.
      have places : e + 1 - ds.length = (((e + 1).toNat - ds.length : Nat) : ℤ) := by omega
      have padded := digits.append (allDigits_zeros ((e + 1).toNat - ds.length))
      have value : (readDigits (ds ++ List.replicate ((e + 1).toNat - ds.length) '0') : ℚ) =
          scaled ds e := by
        rw [readDigits_append_zeros, scaled, places, zpow_natCast]
        push_cast
        ring
      split
      · have point : ['.', '0'] = '.' :: List.replicate 1 '0' := rfl
        rw [point, reading_point padded (allDigits_zeros 1), readDigits_append_zeros _ 1, ← value]
        push_cast
        simp [mul_comm]
      · rw [List.append_nil, reading_whole padded, value]
    · rename_i long
      have whole : AllDigits (ds.take (e + 1).toNat) := fun c member =>
        digits c (List.mem_of_mem_take member)
      have fraction : AllDigits (ds.drop (e + 1).toNat) := fun c member =>
        digits c (List.mem_of_mem_drop member)
      have places : -((ds.drop (e + 1).toNat).length : ℤ) = e + 1 - ds.length := by
        rw [List.length_drop]
        omega
      rw [reading_point whole fraction, List.take_append_drop, places, scaled]

theorem significand_mantissa {c : Char} {tail : List Char} (digits : AllDigits (c :: tail)) :
    let mantissa := [c] ++ (if tail.isEmpty then [] else '.' :: tail)
    (∀ d ∈ mantissa, d ≠ 'e') ∧ significand mantissa = scaled (c :: tail) 0 := by
  have first : AllDigits [c] := fun d member => digits d (by simp_all)
  have later : AllDigits tail := fun d member => digits d (List.mem_cons_of_mem _ member)
  cases tail with
  | nil =>
    refine ⟨fun d => first.ne (by decide), ?_⟩
    simpa [scaled] using significand_whole first
  | cons d rest =>
    refine ⟨fun x member => ?_, ?_⟩
    · rcases List.mem_append.mp member with before | behind
      · exact first.ne (by decide) before
      · rcases List.mem_cons.mp behind with rfl | behind
        · decide
        · exact later.ne (by decide) behind
    · have places : -((d :: rest).length : ℤ) = 0 + 1 - (c :: d :: rest).length := by
        simp only [List.length_cons]
        push_cast
        ring
      refine (significand_point first _).trans ?_
      rw [places]
      rfl

theorem readExponent_eq (e : ℤ) (n : Nat) :
    readExponent ((if e < 0 then '-' else '+') ::
      (List.replicate n '0' ++ natDigits e.natAbs)) = e := by
  split
  · rw [readExponent, readDigits_zeros_append, readDigits_natDigits]
    omega
  · rw [readExponent, readDigits_zeros_append, readDigits_natDigits]
    · omega
    · simp

theorem reading_scientific (digits : AllDigits ds) (nonempty : ds ≠ []) :
    reading (st.writeScientific ds e) = scaled ds e := by
  obtain ⟨c, tail, rfl⟩ := List.exists_cons_of_ne_nil nonempty
  obtain ⟨plain, value⟩ := significand_mantissa digits
  refine (reading_exponent plain _).trans ?_
  rw [value, readExponent_eq, scaled, scaled, mul_assoc, ← zpow_add₀ (by norm_num)]
  congr 2
  ring

/-! ### Bodies -/

/-- A number in a style, its sign aside. -/
def body (d : Digits) : List Char :=
  let d := d.stripZeros 400
  let ds := natDigits d.value
  let e := if d.value = 0 then 0 else d.exponent + ds.length - 1
  if st.positional e then st.writePositional ds e else st.writeScientific ds e

theorem write_eq (negative : Bool) (d : Digits) :
    st.write negative d = String.ofList (if negative then '-' :: st.body d else st.body d) := rfl

theorem natDigits_ne_nil (n : Nat) : natDigits n ≠ [] :=
  List.ne_nil_of_length_pos Nat.length_toDigits_pos

theorem body_cases {P : List Char → Prop} (d : Digits)
    (positional : ∀ ds e, AllDigits ds → ds ≠ [] → P (st.writePositional ds e))
    (scientific : ∀ ds e, AllDigits ds → ds ≠ [] → P (st.writeScientific ds e)) :
    P (st.body d) := by
  rw [body]
  generalize d.stripZeros 400 = d
  generalize (if d.value = 0 then 0 else d.exponent + (natDigits d.value).length - 1 : ℤ) = e
  split
  · exact positional _ e (allDigits_natDigits _) (natDigits_ne_nil _)
  · exact scientific _ e (allDigits_natDigits _) (natDigits_ne_nil _)

/-- The text of a number reads as the number. -/
theorem reading_body (d : Digits) : reading (st.body d) = d.toRat := by
  rw [← d.toRat_stripZeros 400, body]
  generalize d.stripZeros 400 = d
  have digits := allDigits_natDigits d.value
  have value (e : ℤ) (scale : d.value = 0 ∨ e + 1 - (natDigits d.value).length = d.exponent) :
      scaled (natDigits d.value) e = d.toRat := by
    rw [scaled, readDigits_natDigits, Digits.toRat]
    rcases scale with zero | equal
    · simp [zero]
    · rw [equal]
  have scale : d.value = 0 ∨ (if d.value = 0 then 0 else
      d.exponent + (natDigits d.value).length - 1) + 1 - (natDigits d.value).length =
        d.exponent := by
    by_cases zero : d.value = 0
    · exact .inl zero
    · right
      rw [if_neg zero]
      ring
  generalize (if d.value = 0 then 0 else d.exponent + (natDigits d.value).length - 1 : ℤ) = e
    at scale ⊢
  split
  · rw [st.reading_positional digits, value e scale]
  · rw [st.reading_scientific digits (natDigits_ne_nil _), value e scale]

/-! ### The characters of a numeral -/

def IsNumeral (c : Char) : Prop := c.isDigit = true ∨ c ∈ ['.', 'e', '+', '-']

theorem isNumeral_append {first second : List Char} (one : ∀ c ∈ first, IsNumeral c)
    (other : ∀ c ∈ second, IsNumeral c) : ∀ c ∈ first ++ second, IsNumeral c := fun c member =>
  (List.mem_append.mp member).elim (one c) (other c)

theorem isNumeral_cons {first : Char} {rest : List Char} (one : IsNumeral first)
    (other : ∀ c ∈ rest, IsNumeral c) : ∀ c ∈ first :: rest, IsNumeral c := by
  simpa using ⟨one, other⟩

theorem isNumeral_digits (digits : AllDigits ds) : ∀ c ∈ ds, IsNumeral c :=
  fun c member => .inl (digits c member)

/-- A text that begins with a digit, and otherwise holds characters of numerals. -/
structure IsBody (cs : List Char) : Prop where
  head : ∃ c rest, cs = c :: rest ∧ c.isDigit = true
  numeral : ∀ c ∈ cs, IsNumeral c

theorem isBody_positional (digits : AllDigits ds) (nonempty : ds ≠ []) :
    IsBody (st.writePositional ds e) := by
  obtain ⟨c, tail, rfl⟩ := List.exists_cons_of_ne_nil nonempty
  have first : c.isDigit = true := digits c (by simp)
  have point : IsNumeral '.' := .inr (by decide)
  have zero : IsNumeral '0' := .inl (by decide)
  unfold writePositional
  split
  · refine ⟨⟨'0', _, rfl, by decide⟩, ?_⟩
    exact isNumeral_cons zero (isNumeral_cons point
      (isNumeral_digits ((allDigits_zeros _).append digits)))
  · dsimp only
    split
    · refine ⟨⟨c, _, rfl, first⟩, isNumeral_append
        (isNumeral_digits (digits.append (allDigits_zeros _))) ?_⟩
      split
      · exact isNumeral_cons point (isNumeral_cons zero (by simp))
      · simp
    · rename_i above long
      obtain ⟨n, whole⟩ : ∃ n, (e + 1).toNat = n + 1 := ⟨e.toNat, by omega⟩
      rw [whole]
      refine ⟨⟨c, _, rfl, first⟩, isNumeral_append
        (fun d member => .inl (digits d (List.mem_of_mem_take member)))
        (isNumeral_cons point fun d member => .inl (digits d (List.mem_of_mem_drop member)))⟩

theorem isBody_scientific (digits : AllDigits ds) (nonempty : ds ≠ []) :
    IsBody (st.writeScientific ds e) := by
  obtain ⟨c, tail, rfl⟩ := List.exists_cons_of_ne_nil nonempty
  have first : c.isDigit = true := digits c (by simp)
  have later : AllDigits tail := fun d member => digits d (List.mem_cons_of_mem _ member)
  refine ⟨⟨c, _, rfl, first⟩, ?_⟩
  refine isNumeral_append (isNumeral_append (isNumeral_cons (.inl first) (by simp)) ?_)
    (isNumeral_cons (.inr (by decide)) (isNumeral_cons ?_
      (isNumeral_digits ((allDigits_zeros _).append (allDigits_natDigits _)))))
  · split
    · simp
    · exact isNumeral_cons (.inr (by decide)) (isNumeral_digits later)
  · split <;> exact .inr (by decide)

theorem isBody_body (d : Digits) : IsBody (st.body d) :=
  st.body_cases d (fun _ _ => st.isBody_positional) fun _ _ => st.isBody_scientific

/-- A style that marks integral numbers leaves no number without a point or an exponent. -/
theorem marked_body (marks : st.pointZero = true) (d : Digits) :
    '.' ∈ st.body d ∨ 'e' ∈ st.body d := by
  refine st.body_cases (P := fun cs => '.' ∈ cs ∨ 'e' ∈ cs) d (fun ds e _ _ => .inl ?_)
    fun ds e _ _ => .inr (by simp [writeScientific])
  unfold writePositional
  split
  · simp
  · dsimp only
    split <;> simp

/-- Two numbers of one text have one sign, and are equal. -/
theorem write_injective {negative other : Bool} {d d' : Digits}
    (same : st.write negative d = st.write other d') : negative = other ∧ d.toRat = d'.toRat := by
  obtain ⟨c, rest, shape, digit⟩ := (st.isBody_body d).head
  obtain ⟨c', rest', shape', digit'⟩ := (st.isBody_body d').head
  have texts := String.ofList_injective same
  have noSign {c : Char} (digit : c.isDigit = true) : c ≠ '-' := by
    rintro rfl
    exact absurd digit (by decide)
  have bodies : negative = other ∧ st.body d = st.body d' := by
    change (if negative = true then '-' :: st.body d else st.body d) =
      if other = true then '-' :: st.body d' else st.body d' at texts
    cases negative <;> cases other
    · exact ⟨rfl, texts⟩
    · rw [shape] at texts
      exact absurd (List.cons.inj texts).1 (noSign digit)
    · rw [shape'] at texts
      exact absurd (List.cons.inj texts).1.symm (noSign digit')
    · exact ⟨rfl, (List.cons.inj texts).2⟩
  exact ⟨bodies.1, by rw [← st.reading_body d, bodies.2, st.reading_body]⟩

end Style

end ScriptGate.Decimal
