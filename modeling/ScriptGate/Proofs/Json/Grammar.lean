import ScriptGate.Json.Record
import ScriptGate.Proofs.Json.Extent

/-!
# The grammar of JSON texts

Each production relates a text that begins with it to what is left behind it. Any depth, any number
and any bytes of a string are in the grammar. What is passed over is a value of the grammar, and so
is what is read.
-/

namespace ScriptGate.Json

/-! ### Productions -/

inductive Blanks : Bytes → Bytes → Prop
  | nil {s : Bytes} : Blanks s s
  | cons {b : UInt8} {s r : Bytes} : isBlankByte b = true → Blanks s r → Blanks (b :: s) r

/-- The rest of a string and its closing quote. -/
inductive StringRest : Bytes → Bytes → Prop
  | close {r : Bytes} : StringRest (0x22 :: r) r
  | plain {b : UInt8} {s r : Bytes} : b ≠ 0x22 → b ≠ 0x5C → ¬ b < 0x20 → StringRest s r →
      StringRest (b :: s) r
  | short {e : UInt8} {s r : Bytes} : (shortEscape? e).isSome → StringRest s r →
      StringRest (0x5C :: e :: s) r
  | code {a b c d : UInt8} {s r : Bytes} : (hexQuad? a b c d).isSome → StringRest s r →
      StringRest (0x5C :: 0x75 :: a :: b :: c :: d :: s) r

inductive DigitRun : Bytes → Bytes → Prop
  | one {d : UInt8} {r : Bytes} : isDigit d = true → DigitRun (d :: r) r
  | more {d : UInt8} {s r : Bytes} : isDigit d = true → DigitRun s r → DigitRun (d :: s) r

/-- A zero, or digits the first of which is none. -/
inductive WholePart : Bytes → Bytes → Prop
  | zero {r : Bytes} : WholePart (0x30 :: r) r
  | digits {d : UInt8} {s r : Bytes} : d ≠ 0x30 → DigitRun (d :: s) r → WholePart (d :: s) r

inductive FractionPart : Bytes → Bytes → Prop
  | none {r : Bytes} : FractionPart r r
  | digits {s r : Bytes} : DigitRun s r → FractionPart (0x2E :: s) r

inductive ExponentPart : Bytes → Bytes → Prop
  | none {r : Bytes} : ExponentPart r r
  | digits {mark : UInt8} {s r : Bytes} : isExponentMark mark = true → DigitRun s r →
      ExponentPart (mark :: s) r
  | signed {mark sign : UInt8} {s r : Bytes} : isExponentMark mark = true →
      sign = 0x2B ∨ sign = 0x2D → DigitRun s r → ExponentPart (mark :: sign :: s) r

inductive UnsignedText : Bytes → Bytes → Prop
  | parts {s t u r : Bytes} : WholePart s t → FractionPart t u → ExponentPart u r →
      UnsignedText s r

inductive NumberText : Bytes → Bytes → Prop
  | plain {s r : Bytes} : UnsignedText s r → NumberText s r
  | minus {s r : Bytes} : UnsignedText s r → NumberText (0x2D :: s) r

mutual

inductive ValueText : Bytes → Bytes → Prop
  | null {r : Bytes} : ValueText (0x6E :: 0x75 :: 0x6C :: 0x6C :: r) r
  | true {r : Bytes} : ValueText (0x74 :: 0x72 :: 0x75 :: 0x65 :: r) r
  | false {r : Bytes} : ValueText (0x66 :: 0x61 :: 0x6C :: 0x73 :: 0x65 :: r) r
  | string {s r : Bytes} : StringRest s r → ValueText (0x22 :: s) r
  | number {s r : Bytes} : NumberText s r → ValueText s r
  | emptyArray {s r : Bytes} : Blanks s (0x5D :: r) → ValueText (0x5B :: s) r
  | array {s t u r : Bytes} : Blanks s t → ValueText t u → ArrayEnd u r → ValueText (0x5B :: s) r
  | emptyObject {s r : Bytes} : Blanks s (0x7D :: r) → ValueText (0x7B :: s) r
  | object {s t u r : Bytes} : Blanks s t → MemberText t u → ObjectEnd u r →
      ValueText (0x7B :: s) r

/-- What follows an item of an array, with the closing bracket. -/
inductive ArrayEnd : Bytes → Bytes → Prop
  | close {s r : Bytes} : Blanks s (0x5D :: r) → ArrayEnd s r
  | more {s t u v r : Bytes} : Blanks s (0x2C :: t) → Blanks t u → ValueText u v → ArrayEnd v r →
      ArrayEnd s r

/-- A key, its colon and its value. -/
inductive MemberText : Bytes → Bytes → Prop
  | pair {s t u v r : Bytes} : StringRest s t → Blanks t (0x3A :: u) → Blanks u v → ValueText v r →
      MemberText (0x22 :: s) r

/-- What follows a member of an object, with the closing bracket. -/
inductive ObjectEnd : Bytes → Bytes → Prop
  | close {s r : Bytes} : Blanks s (0x7D :: r) → ObjectEnd s r
  | more {s t u v r : Bytes} : Blanks s (0x2C :: t) → Blanks t u → MemberText u v →
      ObjectEnd v r → ObjectEnd s r

end

variable {s t u r : Bytes} {b : UInt8}

/-- A text that is one object with blanks around it. -/
def IsObjectText (s : Bytes) : Prop :=
  ∃ t u, Blanks s (0x7B :: t) ∧ ValueText (0x7B :: t) u ∧ Blanks u []

theorem blanks_skipBlank (s : Bytes) : Blanks s (skipBlank s) := by
  induction s with
  | nil => exact .nil
  | cons b s ih =>
    rw [skipBlank]
    split
    · rename_i blank
      exact .cons blank ih
    · exact .nil

theorem blanks_of_eq (start : skipBlank s = t) : Blanks s t := start ▸ blanks_skipBlank s

theorem skipBlank_of_blanks (blanks : Blanks s (b :: t)) (solid : isBlankByte b = false) :
    skipBlank s = b :: t := by
  generalize whole : b :: t = left at blanks
  induction blanks with
  | nil => rw [← whole, skipBlank, if_neg (by simp [solid])]
  | cons blank _ ih => rw [skipBlank, if_pos blank, ih whole]

/-! ### Strings and numbers -/

theorem stringRest_of_skipString (passed : skipString s = .ok r) : StringRest s r := by
  fun_induction skipString s
  case case2 t =>
    obtain rfl := Except.ok.inj passed
    exact .close
  case case3 quad ih => exact .code (by simp [quad]) (ih passed)
  case case7 short ih => exact .short (by simp [short]) (ih passed)
  case case10 noQuote _ _ noEnd noEscape printable ih =>
    exact .plain noQuote (ne_escape noEnd noEscape) printable (ih passed)
  all_goals simp [fail] at passed

theorem digitRun_of_skipDigits : (skipDigits 0 s).1 = 0 ∧ (skipDigits 0 s).2 = s ∨
    (skipDigits 0 s).1 ≠ 0 ∧ DigitRun s (skipDigits 0 s).2 := by
  induction s with
  | nil => exact .inl ⟨rfl, rfl⟩
  | cons b s ih =>
    rw [skipDigits]
    split
    · rename_i digit
      rw [skipDigits_eq]
      refine .inr ⟨by simp, ?_⟩
      rcases ih with ⟨-, none⟩ | ⟨-, run⟩
      · rw [none]
        exact .one digit
      · exact .more digit run
    · exact .inl ⟨rfl, rfl⟩

theorem digitRun_of_some (some_digit : ¬ (skipDigits 0 s).1 = 0) :
    DigitRun s (skipDigits 0 s).2 :=
  (digitRun_of_skipDigits.resolve_left fun none => some_digit none.1).2

theorem exponentPart_of_skipExponent {mark : UInt8} (isMark : isExponentMark mark = true)
    (passed : skipExponent s = .ok r) : ExponentPart (mark :: s) r := by
  have run {t : Bytes} (passed : (if (skipDigits 0 t).1 = 0 then
      fail .badNumber ((skipDigits 0 t).2.drop 1) else .ok (skipDigits 0 t).2) = .ok r) :
      DigitRun t r := by
    split at passed
    · simp [fail] at passed
    · rename_i some_digit
      obtain rfl := Except.ok.inj passed
      exact digitRun_of_some some_digit
  unfold skipExponent at passed
  split at passed
  · exact .signed isMark (.inl rfl) (run passed)
  · exact .signed isMark (.inr rfl) (run passed)
  · exact .digits isMark (run passed)

theorem exponentPart_of_skipAfterDigits (passed : skipAfterDigits s = .ok r) :
    ExponentPart s r := by
  unfold skipAfterDigits at passed
  split at passed
  · split at passed
    · rename_i mark
      exact exponentPart_of_skipExponent mark passed
    · obtain rfl := Except.ok.inj passed
      exact .none
  · obtain rfl := Except.ok.inj passed
    exact .none

theorem parts_of_skipAfterInteger (passed : skipAfterInteger s = .ok r) :
    ∃ u, FractionPart s u ∧ ExponentPart u r := by
  unfold skipAfterInteger at passed
  split at passed
  · rename_i t
    dsimp only at passed
    split at passed
    · simp [failOn] at passed
    · rename_i some_digit
      exact ⟨_, .digits (digitRun_of_some some_digit), exponentPart_of_skipAfterDigits passed⟩
  · exact ⟨s, .none, exponentPart_of_skipAfterDigits passed⟩

theorem unsignedText_of_skipUnsigned (passed : skipUnsigned s = .ok r) : UnsignedText s r := by
  unfold skipUnsigned at passed
  split at passed
  · simp [fail] at passed
  rename_i b t
  split at passed
  · rename_i zero
    subst zero
    split at passed
    · split at passed
      · simp [failOn] at passed
      · obtain ⟨u, fraction, exponent⟩ := parts_of_skipAfterInteger passed
        exact .parts .zero fraction exponent
    · obtain rfl := Except.ok.inj passed
      exact .parts .zero .none .none
  rename_i notZero
  split at passed
  · rename_i digit
    obtain ⟨u, fraction, exponent⟩ := parts_of_skipAfterInteger passed
    refine .parts (.digits notZero ?_) fraction exponent
    rcases digitRun_of_skipDigits (s := t) with ⟨-, none⟩ | ⟨-, run⟩
    · rw [none]
      exact .one digit
    · exact .more digit run
  · simp [fail] at passed

theorem numberText_of_skipNumber (passed : skipNumber s = .ok r) : NumberText s r := by
  cases s with
  | nil => simp [skipNumber, fail] at passed
  | cons b s =>
    by_cases minus : b = 0x2D
    · subst minus
      exact .minus (unsignedText_of_skipUnsigned passed)
    · rw [skipNumber_of_no_sign minus] at passed
      exact .plain (unsignedText_of_skipUnsigned passed)

/-! ### Values -/

theorem valueText_of_skipScalar (passed : skipScalar b s = .ok r) : ValueText (b :: s) r := by
  unfold skipScalar at passed
  split at passed
  · subst_vars
    obtain rfl := expect_iff.mp passed
    exact .null
  split at passed
  · subst_vars
    obtain rfl := expect_iff.mp passed
    exact .true
  split at passed
  · subst_vars
    obtain rfl := expect_iff.mp passed
    exact .false
  split at passed
  · subst_vars
    exact .string (stringRest_of_skipString passed)
  split at passed
  · exact .number (numberText_of_skipNumber passed)
  · simp [failOn] at passed

/-- What follows a value inside open containers, up to the end of the outermost one. -/
def Unwinds : List Bracket → Bytes → Bytes → Prop
  | [], s, r => s = r
  | .array :: outer, s, r => ∃ t, ArrayEnd s t ∧ Unwinds outer t r
  | .object :: outer, s, r => ∃ t, ObjectEnd s t ∧ Unwinds outer t r

/-- What is passed over with some fuel is in the grammar. -/
structure SkipsText (fuel : Nat) : Prop where
  value : ∀ {outer s r}, skipValue fuel outer s = .ok r →
    ∃ u, ValueText (skipBlank s) u ∧ Unwinds outer u r
  key : ∀ {outer s r}, skipKey fuel outer s = .ok r →
    ∃ u, MemberText (skipBlank s) u ∧ Unwinds outer u r
  rest : ∀ {outer s r}, skipRest fuel outer s = .ok r → Unwinds outer s r

section Step

variable {fuel : Nat} {outer : List Bracket} (skips : SkipsText fuel)
include skips

theorem skipValue_text (passed : skipValue (fuel + 1) outer s = .ok r) :
    ∃ u, ValueText (skipBlank s) u ∧ Unwinds outer u r := by
  rw [skipValue] at passed
  split at passed
  · simp [fail] at passed
  rename_i b t start
  rw [start]
  split at passed
  · subst_vars
    split at passed
    · simp [fail] at passed
    rename_i c u begins
    split at passed
    · subst_vars
      exact ⟨u, .emptyArray (blanks_of_eq begins), skips.rest passed⟩
    · obtain ⟨v, first, w, others, unwinds⟩ := skips.value passed
      rw [← begins, skipBlank_skipBlank] at first
      exact ⟨w, .array (blanks_skipBlank t) first others, unwinds⟩
  split at passed
  · subst_vars
    split at passed
    · simp [fail] at passed
    rename_i c u begins
    split at passed
    · subst_vars
      exact ⟨u, .emptyObject (blanks_of_eq begins), skips.rest passed⟩
    · obtain ⟨v, first, w, others, unwinds⟩ := skips.key passed
      rw [← begins, skipBlank_skipBlank] at first
      exact ⟨w, .object (blanks_skipBlank t) first others, unwinds⟩
  · split at passed
    · rename_i u scalar
      exact ⟨u, valueText_of_skipScalar scalar, skips.rest passed⟩
    · simp at passed

theorem skipKey_text (passed : skipKey (fuel + 1) outer s = .ok r) :
    ∃ u, MemberText (skipBlank s) u ∧ Unwinds outer u r := by
  rw [skipKey] at passed
  split at passed
  · simp [fail] at passed
  · rename_i t start
    rw [start]
    split at passed
    · simp at passed
    rename_i u key
    split at passed
    · simp [fail] at passed
    rename_i c v colon
    split at passed
    · subst_vars
      obtain ⟨w, value, unwinds⟩ := skips.value passed
      exact ⟨w, .pair (stringRest_of_skipString key) (blanks_of_eq colon) (blanks_skipBlank v) value,
        unwinds⟩
    · simp [failOn] at passed
  · simp [failOn] at passed

theorem skipRest_text (passed : skipRest (fuel + 1) outer s = .ok r) : Unwinds outer s r := by
  rw [skipRest.eq_def] at passed
  dsimp only at passed
  split at passed
  · exact Except.ok.inj passed
  · split at passed
    · simp [fail] at passed
    rename_i b t start
    split at passed
    · subst_vars
      obtain ⟨u, next, v, others, unwinds⟩ := skips.value passed
      exact ⟨v, .more (blanks_of_eq start) (blanks_skipBlank t) next others, unwinds⟩
    split at passed
    · subst_vars
      exact ⟨t, .close (blanks_of_eq start), skips.rest passed⟩
    · simp [failOn] at passed
  · split at passed
    · simp [fail] at passed
    rename_i b t start
    split at passed
    · subst_vars
      obtain ⟨u, next, v, others, unwinds⟩ := skips.key passed
      exact ⟨v, .more (blanks_of_eq start) (blanks_skipBlank t) next others, unwinds⟩
    split at passed
    · subst_vars
      exact ⟨t, .close (blanks_of_eq start), skips.rest passed⟩
    · simp [failOn] at passed

end Step

theorem skipsText (fuel : Nat) : SkipsText fuel := by
  induction fuel with
  | zero => constructor <;> intros <;> simp_all [skipValue, skipKey, skipRest, fail]
  | succ fuel ih => exact ⟨skipValue_text ih, skipKey_text ih, skipRest_text ih⟩

theorem valueText_of_skipValue {fuel : Nat} (passed : skipValue fuel [] s = .ok r) :
    ValueText (skipBlank s) r := by
  obtain ⟨u, text, rfl⟩ := (skipsText fuel).value passed
  exact text

theorem valueText_of_value {fuel depth : Nat} {v : Json} (read : value fuel depth s = .ok (v, r)) :
    ValueText (skipBlank s) r :=
  valueText_of_skipValue ((skipValue_of_value read).2 (s.length + 1) (Nat.lt_succ_self _))

/-! ### Objects -/

theorem skipBlank_of_isObjectText (object : IsObjectText s) : ∃ t, skipBlank s = 0x7B :: t := by
  obtain ⟨t, u, blanks, -, -⟩ := object
  exact ⟨t, skipBlank_of_blanks blanks (by decide)⟩

/-- The texts of objects are the object texts among the texts of values. -/
theorem IsText.isObjectText_iff {depth : Nat} {v : Json} (text : IsText depth s v) :
    IsObjectText s ↔ ∃ ms, v = .obj ms := by
  obtain ⟨r, read, blank⟩ := text
  obtain ⟨b, t, start, begins⟩ := begins_of_value read
  constructor
  · intro object
    obtain ⟨u, starts⟩ := skipBlank_of_isObjectText object
    obtain ⟨rfl, -⟩ := List.cons.inj (start.symm.trans starts)
    cases v with
    | obj ms => exact ⟨ms, rfl⟩
    | null | bool | num | str | arr => simp [Begins, isDigit] at begins
  · rintro ⟨ms, rfl⟩
    obtain rfl : b = 0x7B := begins
    have parsed := valueText_of_value read
    rw [start] at parsed
    exact ⟨t, r, blanks_of_eq start, parsed, blanks_of_eq blank⟩

end ScriptGate.Json
