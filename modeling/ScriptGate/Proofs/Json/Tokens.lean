import Mathlib.Data.List.Basic
import ScriptGate.Json.Printer
import ScriptGate.Json.Token

/-!
# Tokens read back

A quoted string and the digits of an integer are read as what they were. Whether a double is depends
on its shortest digits, so `ReadsBack` says it of one number. A number that ends a text is read in
the same way in front of anything that does not go on with it.
-/

namespace ScriptGate.Json

/-! ### Bytes of ASCII characters -/

theorem ofString_ofList (cs : List Char) :
    Bytes.ofString (String.ofList cs) = cs.flatMap String.utf8EncodeChar := by
  simp [Bytes.ofString, String.toUTF8, List.utf8Encode]

theorem ofString_append (s t : String) :
    Bytes.ofString (s ++ t) = Bytes.ofString s ++ Bytes.ofString t := by
  simp [Bytes.ofString, String.toUTF8]

theorem utf8EncodeChar_ascii :
    ∀ n : Fin 128, String.utf8EncodeChar (Char.ofNat n.val) = [UInt8.ofNat n.val] := by
  decide

/-! ### Strings -/

theorem stringBytes_plain {b : UInt8} (noQuote : b ≠ 0x22) (noEscape : b ≠ 0x5C)
    (noControl : ¬ b < 0x20) (acc r : Bytes) :
    stringBytes acc (b :: r) = stringBytes (b :: acc) r := by
  rw [stringBytes]
  · simp [noControl]
  all_goals simp_all

theorem stringBytes_short {e b : UInt8} (noCode : e ≠ 0x75) (stands : shortEscape? e = some b)
    (acc r : Bytes) :
    stringBytes acc (0x5C :: e :: r) = stringBytes (b :: acc) r := by
  rw [stringBytes]
  · simp [stands]
  all_goals simp_all

theorem control_read : ∀ n : Fin 32,
    hexQuad? 0x30 0x30 (UInt8.ofNat (Bytes.hexDigit (n.val / 16)).toNat)
      (UInt8.ofNat (Bytes.hexDigit (n.val % 16)).toNat) = some n.val ∧
    isLowSurrogate n.val = false ∧ isHighSurrogate n.val = false ∧
    String.utf8EncodeChar (Char.ofNat n.val) = [UInt8.ofNat n.val] := by
  decide

theorem stringBytes_control {b : UInt8} (control : b < 0x20) (acc r : Bytes) :
    stringBytes acc ([0x5C, 0x75, 0x30, 0x30] ++
      [UInt8.ofNat (Bytes.hexDigit (b.toNat / 16)).toNat,
        UInt8.ofNat (Bytes.hexDigit (b.toNat % 16)).toNat] ++ r) = stringBytes (b :: acc) r := by
  have bound : b.toNat < 32 := control
  obtain ⟨quad, low, high, char⟩ := control_read ⟨b.toNat, bound⟩
  simp only [List.cons_append, List.nil_append]
  rw [stringBytes]
  simp only at quad low high char
  simp [quad, low, high, char]

theorem stringBytes_escapeByte (b : UInt8) (acc r : Bytes) :
    stringBytes acc (escapeByte b ++ r) = stringBytes (b :: acc) r := by
  unfold escapeByte
  split
  · subst_vars; exact stringBytes_short (by decide) (by decide) acc r
  split
  · subst_vars; exact stringBytes_short (by decide) (by decide) acc r
  split
  · subst_vars; exact stringBytes_short (by decide) (by decide) acc r
  split
  · subst_vars; exact stringBytes_short (by decide) (by decide) acc r
  split
  · subst_vars; exact stringBytes_short (by decide) (by decide) acc r
  split
  · subst_vars; exact stringBytes_short (by decide) (by decide) acc r
  split
  · subst_vars; exact stringBytes_short (by decide) (by decide) acc r
  split
  · rename_i control
    exact stringBytes_control control acc r
  · rename_i h1 h2 _ _ _ _ _ h3
    exact stringBytes_plain h1 h2 h3 acc r

theorem stringBytes_escaped (b acc r : Bytes) :
    stringBytes acc (b.flatMap escapeByte ++ 0x22 :: r) = .ok (acc.reverse ++ b, r) := by
  induction b generalizing acc with
  | nil => simp [stringBytes]
  | cons x rest ih =>
    rw [List.flatMap_cons, List.append_assoc, stringBytes_escapeByte, ih]
    simp

/-- What is written between quotes is read as what it was. -/
theorem string_quoted (s : String) (r : Bytes) :
    string ((Bytes.ofString s).flatMap escapeByte ++ 0x22 :: r) = .ok (s, r) := by
  simp [string, stringBytes_escaped, Bytes.toString?_ofString]
/-! ### Numbers in front of something else -/

/-- What can stand behind a number: it does not go on with these bytes. -/
def Stops (rest : Bytes) : Prop :=
  ∀ b r, rest = b :: r → isDigit b = false ∧ b ≠ 0x2E ∧ isExponentMark b = false

variable {rest : Bytes}

theorem takeDigits_append (stops : Stops rest) (sig count : Nat) (s : Bytes) :
    takeDigits sig count (s ++ rest) =
      ((takeDigits sig count s).1, (takeDigits sig count s).2.1,
        (takeDigits sig count s).2.2 ++ rest) := by
  induction s generalizing sig count with
  | nil =>
    cases rest with
    | nil => rfl
    | cons b r => simp [takeDigits, (stops b r rfl).1]
  | cons b r ih =>
    simp only [List.cons_append, takeDigits]
    split
    · split
      · exact ih _ _
      · rfl
    · rfl

theorem skipDigits_append (stops : Stops rest) (count : Nat) (s : Bytes) :
    skipDigits count (s ++ rest) = ((skipDigits count s).1, (skipDigits count s).2 ++ rest) := by
  induction s generalizing count with
  | nil =>
    cases rest with
    | nil => rfl
    | cons b r => simp [skipDigits, (stops b r rfl).1]
  | cons b r ih =>
    simp only [List.cons_append, skipDigits]
    split
    · exact ih _
    · rfl

theorem exponentDigits_append (stops : Stops rest) (e : Nat) (s : Bytes) :
    exponentDigits e (s ++ rest) =
      ((exponentDigits e s).1, (exponentDigits e s).2.1, (exponentDigits e s).2.2 ++ rest) := by
  induction s generalizing e with
  | nil =>
    cases rest with
    | nil => rfl
    | cons b r => simp [exponentDigits, (stops b r rfl).1]
  | cons b r ih =>
    simp only [List.cons_append, exponentDigits]
    split
    · split
      · exact ih _
      · rfl
    · rfl

variable {positive : Bool} {sig : Nat} {start : Int} {s r : Bytes} {n : Json.Number}

theorem floatToken_append (rest : Bytes) (read : floatToken positive sig start s = .ok (n, r)) :
    floatToken positive sig start (s ++ rest) = .ok (n, r ++ rest) := by
  unfold floatToken at read ⊢
  split at read
  · obtain ⟨rfl, rfl⟩ := Prod.mk.inj (Except.ok.inj read)
    rfl
  · simp [fail] at read

def exponentAfterSign (positive : Bool) (sig : Nat) (start : Int) (up : Bool) :
    Bytes → Parsed Json.Number
  | [] => fail .endInValue []
  | b :: r =>
    if isDigit b then
      match exponentDigits (b.toNat - 0x30) r with
      | (e, true, r) => floatToken positive sig (if up then start + e else start - e) r
      | (_, false, r) =>
        if sig ≠ 0 ∧ up then fail .numberRange r
        else floatToken positive 0 0 (skipDigits 0 r).2
    else fail .badNumber r

def exponentSign (s : Bytes) : Bool × Bytes :=
  match s with
  | 0x2B :: r => (true, r)
  | 0x2D :: r => (false, r)
  | _ => (true, s)

theorem exponent_eq (positive : Bool) (sig : Nat) (start : Int) (s : Bytes) :
    exponent positive sig start s =
      exponentAfterSign positive sig start (exponentSign s).1 (exponentSign s).2 := by
  cases s with
  | nil => rfl
  | cons b s =>
    by_cases plus : b = 0x2B
    · subst plus; rfl
    by_cases minus : b = 0x2D
    · subst minus; rfl
    simp only [exponent, exponentSign, exponentAfterSign]
    rfl

theorem exponentSign_cons_append (b : UInt8) (s : Bytes) :
    exponentSign (b :: s ++ rest) =
      ((exponentSign (b :: s)).1, (exponentSign (b :: s)).2 ++ rest) := by
  by_cases plus : b = 0x2B
  · subst plus; rfl
  by_cases minus : b = 0x2D
  · subst minus; rfl
  simp [exponentSign, plus, minus]

theorem exponentAfterSign_append {up : Bool} (stops : Stops rest)
    (read : exponentAfterSign positive sig start up s = .ok (n, r)) :
    exponentAfterSign positive sig start up (s ++ rest) = .ok (n, r ++ rest) := by
  cases s with
  | nil => simp [exponentAfterSign, fail] at read
  | cons b s =>
    simp only [List.cons_append, exponentAfterSign, exponentDigits_append stops] at read ⊢
    split
    · rename_i digit
      rw [if_pos digit] at read
      rcases digits : exponentDigits (b.toNat - 0x30) s with ⟨e, fits, behind⟩
      cases fits with
      | true =>
        simp only [digits] at read ⊢
        exact floatToken_append rest read
      | false =>
        simp only [digits, skipDigits_append stops] at read ⊢
        split
        · rename_i large
          rw [if_pos large] at read
          simp [fail] at read
        · rename_i small
          rw [if_neg small] at read
          exact floatToken_append rest read
    · rename_i noDigit
      rw [if_neg noDigit] at read
      simp [fail] at read

theorem exponent_append (stops : Stops rest) (read : exponent positive sig start s = .ok (n, r)) :
    exponent positive sig start (s ++ rest) = .ok (n, r ++ rest) := by
  rw [exponent_eq] at read ⊢
  cases s with
  | nil => simp [exponentSign, exponentAfterSign, fail] at read
  | cons b s =>
    rw [exponentSign_cons_append]
    exact exponentAfterSign_append stops read

theorem afterDigits_append (stops : Stops rest)
    (read : afterDigits positive sig start s = .ok (n, r)) :
    afterDigits positive sig start (s ++ rest) = .ok (n, r ++ rest) := by
  cases s with
  | nil =>
    have whole := floatToken_append rest read
    cases rest with
    | nil => exact whole
    | cons b t => simpa [afterDigits, (stops b t rfl).2.2] using whole
  | cons b s =>
    simp only [List.cons_append, afterDigits] at read ⊢
    split
    · rename_i mark
      rw [if_pos mark] at read
      exact exponent_append stops read
    · rename_i noMark
      rw [if_neg noMark] at read
      exact floatToken_append rest read

theorem fraction_append (stops : Stops rest) (read : fraction positive sig start s = .ok (n, r)) :
    fraction positive sig start (s ++ rest) = .ok (n, r ++ rest) := by
  simp only [fraction, takeDigits_append stops, skipDigits_append stops] at read ⊢
  split at read
  · split at read <;> simp [fail, failOn] at read
  · rename_i some_digit
    rw [if_neg some_digit]
    exact afterDigits_append stops read

theorem integerToken_append (rest : Bytes) (read : integerToken positive sig s = .ok (n, r)) :
    integerToken positive sig (s ++ rest) = .ok (n, r ++ rest) := by
  simp only [integerToken] at read ⊢
  by_cases word : IsWord (if positive = true then (sig : Int) else -sig) ∧
      (positive = true ∨ (if positive = true then (sig : Int) else -sig) ≠ 0)
  · rw [dif_pos word] at read ⊢
    obtain ⟨rfl, rfl⟩ := Prod.mk.inj (Except.ok.inj read)
    rfl
  · rw [dif_neg word] at read ⊢
    exact floatToken_append rest read

theorem afterInteger_append (stops : Stops rest)
    (read : afterInteger positive sig s = .ok (n, r)) :
    afterInteger positive sig (s ++ rest) = .ok (n, r ++ rest) := by
  cases s with
  | nil =>
    have whole := integerToken_append rest read
    cases rest with
    | nil => exact whole
    | cons b t => simpa [afterInteger, stops b t rfl] using whole
  | cons b s =>
    simp only [List.cons_append, afterInteger] at read ⊢
    split
    · rename_i point
      rw [if_pos point] at read
      exact fraction_append stops read
    · rename_i noPoint
      rw [if_neg noPoint] at read
      split
      · rename_i mark
        rw [if_pos mark] at read
        exact exponent_append stops read
      · rename_i noMark
        rw [if_neg noMark] at read
        exact integerToken_append rest read

theorem unsigned_zero_append (stops : Stops rest)
    (read : unsigned positive (0x30 :: s) = .ok (n, r)) :
    unsigned positive (0x30 :: (s ++ rest)) = .ok (n, r ++ rest) := by
  simp only [unsigned, if_true] at read ⊢
  cases s with
  | nil =>
    have whole := afterInteger_append stops read
    cases rest with
    | nil => exact whole
    | cons b t => simpa [(stops b t rfl).1] using whole
  | cons c s =>
    simp only [List.cons_append] at read ⊢
    split
    · rename_i digit
      rw [if_pos digit] at read
      simp [failOn] at read
    · rename_i noDigit
      rw [if_neg noDigit] at read
      exact afterInteger_append stops read

theorem unsigned_digits_append {b : UInt8} (stops : Stops rest) (notZero : b ≠ 0x30)
    (read : unsigned positive (b :: s) = .ok (n, r)) :
    unsigned positive (b :: (s ++ rest)) = .ok (n, r ++ rest) := by
  simp only [unsigned, notZero, if_false] at read ⊢
  split
  · rename_i digit
    rw [if_pos digit] at read
    simp only [takeDigits_append stops, skipDigits_append stops] at read ⊢
    split
    · rename_i whole
      rw [if_pos whole] at read
      exact afterInteger_append stops read
    · rename_i inexact
      rw [if_neg inexact] at read
      -- Only what is left behind the digits matters from here on.
      generalize (skipDigits 0 (takeDigits (b.toNat - 0x30) 1 s).2.2).2 = t at read ⊢
      cases t with
      | nil =>
        have whole := afterDigits_append stops read
        cases rest with
        | nil => exact whole
        | cons c t => simpa [(stops c t rfl).2.1] using whole
      | cons c t =>
        by_cases point : c = 0x2E
        · subst point
          exact fraction_append stops read
        · split at read
          · rename_i equal
            exact absurd (List.cons.inj equal).1 point
          · rw [List.cons_append]
            split
            · rename_i equal
              exact absurd (List.cons.inj equal).1 point
            · exact afterDigits_append stops read
  · rename_i noDigit
    rw [if_neg noDigit] at read
    simp [fail] at read

theorem unsigned_append (stops : Stops rest) (read : unsigned positive s = .ok (n, r)) :
    unsigned positive (s ++ rest) = .ok (n, r ++ rest) := by
  cases s with
  | nil => simp [unsigned, fail] at read
  | cons b s =>
    by_cases zero : b = 0x30
    · subst zero
      exact unsigned_zero_append stops read
    · exact unsigned_digits_append stops zero read

/-- A number that ends a text is read in the same way in front of what does not go on with it. -/
theorem number_append (stops : Stops rest) (read : number s = .ok (n, r)) :
    number (s ++ rest) = .ok (n, r ++ rest) := by
  cases s with
  | nil => simp [number, unsigned, fail] at read
  | cons b s =>
    by_cases minus : b = 0x2D
    · subst minus
      exact unsigned_append stops read
    · have same (t : Bytes) : number (b :: t) = unsigned true (b :: t) := by
        simp [number, minus]
      rw [same] at read
      rw [List.cons_append, same]
      exact unsigned_append stops read

/-! ### Integers -/

def digitByte (c : Char) : UInt8 := UInt8.ofNat c.toNat

theorem toNat_digitByte {c : Char} (digit : c.isDigit = true) :
    (digitByte c).toNat = c.toNat ∧ 48 ≤ c.toNat ∧ c.toNat ≤ 57 := by
  have range : 48 ≤ c.toNat ∧ c.toNat ≤ 57 := Char.isDigit_iff_toNat.mp digit
  have small : c.toNat < 256 := by omega
  exact ⟨by rw [digitByte, UInt8.toNat_ofNat', Nat.mod_eq_of_lt small], range⟩

theorem isDigit_digitByte {c : Char} (digit : c.isDigit = true) : isDigit (digitByte c) = true := by
  obtain ⟨value, low, high⟩ := toNat_digitByte digit
  simp [isDigit, UInt8.le_iff_toNat_le, value, low, high]

theorem utf8EncodeChar_digit {c : Char} (digit : c.isDigit = true) :
    String.utf8EncodeChar c = [digitByte c] := by
  obtain ⟨-, low, high⟩ := toNat_digitByte digit
  have code := utf8EncodeChar_ascii ⟨c.toNat, by omega⟩
  rwa [Char.ofNat_toNat] at code

theorem flatMap_utf8EncodeChar_digits {cs : List Char} (digits : ∀ c ∈ cs, c.isDigit = true) :
    cs.flatMap String.utf8EncodeChar = cs.map digitByte := by
  induction cs with
  | nil => rfl
  | cons c rest ih =>
    rw [List.flatMap_cons, utf8EncodeChar_digit (digits c (by simp)),
      ih fun d member => digits d (List.mem_cons_of_mem _ member)]
    rfl

theorem le_ofDigitChars (cs : List Char) (start : Nat) : start ≤ Nat.ofDigitChars 10 cs start := by
  rw [Nat.ofDigitChars_eq_ofDigitChars_zero]
  have power : 1 ≤ 10 ^ cs.length := Nat.one_le_pow _ _ (by decide)
  have shifted : 1 * start ≤ 10 ^ cs.length * start := Nat.mul_le_mul_right _ power
  omega

theorem takeDigits_digits {cs : List Char} (digits : ∀ c ∈ cs, c.isDigit = true) (sig count : Nat)
    (fits : Nat.ofDigitChars 10 cs sig < Word.count64) :
    takeDigits sig count (cs.map digitByte) =
      (Nat.ofDigitChars 10 cs sig, count + cs.length, []) := by
  induction cs generalizing sig count with
  | nil => simp [takeDigits]
  | cons c rest ih =>
    obtain ⟨value, low, high⟩ := toNat_digitByte (digits c (by simp))
    have next : sig * 10 + ((digitByte c).toNat - 0x30) = 10 * sig + (c.toNat - '0'.toNat) := by
      rw [value, Nat.mul_comm]; rfl
    rw [Nat.ofDigitChars_cons] at fits
    -- More digits make no number smaller, so none of the numbers on the way is too large.
    have below := Nat.lt_of_le_of_lt (le_ofDigitChars rest _) fits
    simp only [List.map_cons, takeDigits, isDigit_digitByte (digits c (by simp)), if_true, next,
      below]
    rw [ih (fun d member => digits d (List.mem_cons_of_mem _ member)) _ _ fits,
      Nat.ofDigitChars_cons, List.length_cons]
    simp [Nat.add_assoc, Nat.add_comm 1]

theorem toDigits_head {n : Nat} (positive : 0 < n) :
    ∃ c cs, Nat.toDigits 10 n = c :: cs ∧ c ≠ '0' := by
  induction n using Nat.strongRecOn with
  | ind n ih =>
    by_cases small : n < 10
    · refine ⟨n.digitChar, [], Nat.toDigits_of_lt_base small, ?_⟩
      have nonzero : ∀ d : Fin 10, 0 < d.val → d.val.digitChar ≠ '0' := by decide
      exact nonzero ⟨n, small⟩ positive
    · obtain ⟨c, cs, digits, nonzero⟩ := ih (n / 10) (by omega) (by omega)
      exact ⟨c, cs ++ [(n % 10).digitChar],
        by rw [Nat.toDigits_of_base_le (by decide) (by omega), digits, List.cons_append], nonzero⟩

/-- The digits of a natural number that fits are read as that number. -/
theorem unsigned_repr (positive : Bool) {n : Nat} (fits : n < Word.count64) :
    unsigned positive (Bytes.ofString n.repr) = integerToken positive n [] := by
  have digits (c : Char) (member : c ∈ Nat.toDigits 10 n) : c.isDigit = true :=
    Nat.isDigit_of_mem_toDigits (by decide) (by decide) member
  rw [Nat.repr_eq_ofList_toDigits, ofString_ofList, flatMap_utf8EncodeChar_digits digits]
  rcases Nat.eq_zero_or_pos n with rfl | above
  · rfl
  · obtain ⟨c, cs, shape, nonzero⟩ := toDigits_head above
    have value := Nat.ofDigitChars_ten_toDigits (n := n)
    rw [shape] at digits value ⊢
    obtain ⟨byte, low, high⟩ := toNat_digitByte (digits c (by simp))
    have notZero : digitByte c ≠ 0x30 := fun equal => nonzero <| by
      have code : c.toNat = 48 := byte.symm.trans (congrArg UInt8.toNat equal)
      rw [← Char.ofNat_toNat c, code]
    have first : (digitByte c).toNat - 0x30 = 10 * 0 + (c.toNat - '0'.toNat) := by
      rw [byte, Nat.mul_zero, Nat.zero_add]; rfl
    rw [Nat.ofDigitChars_cons, ← first] at value
    have rest := takeDigits_digits (fun d member => digits d (List.mem_cons_of_mem _ member))
      ((digitByte c).toNat - 0x30) 1 (value ▸ fits)
    simp [unsigned, notZero, isDigit_digitByte (digits c (by simp)), rest, value, skipDigits,
      afterInteger]

theorem integerToken_eq {positive : Bool} {sig : Nat} {i : Int} (word : IsWord i)
    (value : (if positive = true then (sig : Int) else -sig) = i)
    (signed : positive = true ∨ i ≠ 0) (r : Bytes) :
    integerToken positive sig r = .ok (.int i word, r) := by
  subst value
  rw [integerToken, dif_pos ⟨word, signed⟩]

theorem number_of_unsigned {s r : Bytes} {n : Json.Number} (read : unsigned true s = .ok (n, r)) :
    number s = .ok (n, r) := by
  unfold number
  split
  · simp [unsigned, isDigit, fail] at read
  · exact read

/-- The text of an integer is read as that integer. -/
theorem number_intText {i : Int} (word : IsWord i) :
    number (Bytes.ofString (intText i)) = .ok (.int i word, []) := by
  have low : (-9223372036854775808 : Int) ≤ i := word.1
  have high : i ≤ (18446744073709551615 : Int) := word.2
  rw [intText, Int.toString_eq_repr, Int.repr_eq_if]
  split
  · have fits : i.toNat < Word.count64 := by simp only [Word.count64]; omega
    refine number_of_unsigned ?_
    rw [unsigned_repr true fits]
    exact integerToken_eq word (by simp; omega) (.inl rfl) []
  · have fits : (-i).toNat < Word.count64 := by simp only [Word.count64]; omega
    have sign : Bytes.ofString "-" = [0x2D] := rfl
    rw [ofString_append, sign, List.singleton_append, number, unsigned_repr false fits]
    exact integerToken_eq word (by simp; omega) (.inr (by omega)) []

/-- A number that is read back from its text. -/
def Number.ReadsBack (n : Json.Number) : Prop := number n.encode = .ok (n, [])

theorem readsBack_int {i : Int} (word : IsWord i) : (Number.int i word).ReadsBack :=
  number_intText word

theorem number_head (read : number s = .ok (n, r)) :
    ∃ b t, s = b :: t ∧ (b = 0x2D ∨ isDigit b = true) := by
  cases s with
  | nil => simp [number, unsigned, fail] at read
  | cons b t =>
    refine ⟨b, t, rfl, ?_⟩
    by_cases minus : b = 0x2D
    · exact .inl minus
    · have same : number (b :: t) = unsigned true (b :: t) := by simp [number, minus]
      rw [same] at read
      by_contra other
      have noDigit : isDigit b = false := by simpa [minus] using other
      have noZero : b ≠ 0x30 := by
        rintro rfl
        exact absurd noDigit (by decide)
      simp [unsigned, noDigit, noZero, fail] at read

end ScriptGate.Json
