import ScriptGate.Proofs.Json.Join
import ScriptGate.Proofs.Json.Passing

/-!
# How far readers look

A reader that has come to an end looks at what is left only to see that it need not go on. So it
reads the same where what is left is cut off at any place.
-/

namespace ScriptGate.Json

variable {s t u r : Bytes} {b : UInt8}

/-- `read` leads from `s` to what is left, `r`, and stays as it is where `r` is cut off. -/
def Cuts (s r : Bytes) (read : Bytes → Bytes → Prop) : Prop :=
  ∃ t, s = t ++ r ∧ ∀ rest, rest <+: r → read (t ++ rest) rest

variable {read first second : Bytes → Bytes → Prop}

namespace Cuts

theorem refl (r : Bytes) : Cuts r r Eq := ⟨[], rfl, fun _ _ => rfl⟩

theorem imp (cuts : Cuts s r first) (implies : ∀ a c, first a c → second a c) :
    Cuts s r second := by
  obtain ⟨t, rfl, same⟩ := cuts
  exact ⟨t, rfl, fun rest before => implies _ _ (same rest before)⟩

theorem trans (one : Cuts s u first) (other : Cuts u r second) :
    Cuts s r fun a c => ∃ between, first a between ∧ second between c := by
  obtain ⟨t, rfl, same⟩ := one
  obtain ⟨t', rfl, same'⟩ := other
  refine ⟨t ++ t', by rw [List.append_assoc], fun rest before => ⟨t' ++ rest, ?_, same' rest before⟩⟩
  rw [List.append_assoc]
  exact same _ ((List.prefix_append_right_inj t').mpr before)

theorem behind (cuts : Cuts s r first) (implies : ∀ a c, first a c → second (b :: a) c) :
    Cuts (b :: s) r second := by
  obtain ⟨t, rfl, same⟩ := cuts
  exact ⟨b :: t, rfl, fun rest before => implies _ _ (same rest before)⟩

theorem stay (empty : read [] []) (same : ∀ t, read (b :: t) (b :: t)) :
    Cuts (b :: s) (b :: s) read := by
  refine ⟨[], rfl, fun rest before => ?_⟩
  rcases List.prefix_cons_iff.mp before with rfl | ⟨t, rfl, -⟩
  · exact empty
  · exact same t

theorem uncons (cuts : Cuts (b :: s) r read) (strict : ∀ a c, read a c → c.length < a.length) :
    Cuts s r fun a c => read (b :: a) c := by
  obtain ⟨t, whole, same⟩ := cuts
  cases t with
  | nil => exact absurd (strict _ _ (same [] (List.nil_prefix))) (Nat.lt_irrefl 0)
  | cons d t =>
    obtain ⟨rfl, rfl⟩ := List.cons.inj whole
    exact ⟨t, rfl, same⟩

theorem stay_nil (empty : read [] []) : Cuts [] [] read :=
  ⟨[], rfl, fun rest before => by rwa [List.prefix_nil.mp before]⟩

end Cuts

/-! ### Blanks, words and strings -/

theorem expect_iff {ws : Bytes} : expect ws s = .ok r ↔ s = ws ++ r := by
  induction ws generalizing s with
  | nil => simp [expect]
  | cons w ws ih =>
    cases s with
    | nil => simp [expect, fail]
    | cons b s =>
      rw [expect]
      split
      · rename_i same
        simp [ih, same]
      · rename_i other
        simp [fail, other]

theorem expect_cuts {ws : Bytes} (read : expect ws s = .ok r) :
    Cuts s r fun a c => expect ws a = .ok c :=
  ⟨ws, expect_iff.mp read, fun _ _ => expect_iff.mpr rfl⟩

/-- The bytes of a string end at its quote, whatever is behind. -/
theorem stringBytes_extent {acc x : Bytes} (read : stringBytes acc s = .ok (x, r)) :
    ∃ t, s = t ++ r ∧ ∀ rest, stringBytes acc (t ++ rest) = .ok (x, rest) := by
  fun_induction stringBytes acc s
  case case2 acc t =>
    obtain ⟨rfl, rfl⟩ := Prod.mk.inj (Except.ok.inj read)
    exact ⟨[0x22], rfl, fun rest => rfl⟩
  case case7 acc a b c d low quad noLow high e f g h _ second pair isLow _ ih =>
    obtain ⟨t, rfl, same⟩ := ih read
    refine ⟨0x5C :: 0x75 :: a :: b :: c :: d :: 0x5C :: 0x75 :: e :: f :: g :: h :: t, rfl,
      fun rest => ?_⟩
    simpa [stringBytes, quad, noLow, high, pair, isLow] using same rest
  case case14 acc a b c d _ code quad noLow noHigh ih =>
    obtain ⟨t, rfl, same⟩ := ih read
    refine ⟨0x5C :: 0x75 :: a :: b :: c :: d :: t, rfl, fun rest => ?_⟩
    simpa [stringBytes, quad, noLow, noHigh] using same rest
  case case16 acc e _ _ noCode _ short ih =>
    obtain ⟨t, rfl, same⟩ := ih read
    refine ⟨0x5C :: e :: t, rfl, fun rest => ?_⟩
    rw [List.cons_append, List.cons_append, stringBytes_short noCode short]
    exact same rest
  case case19 acc c _ noQuote noEnd _ _ noEscape printable ih =>
    obtain ⟨t, rfl, same⟩ := ih read
    refine ⟨c :: t, rfl, fun rest => ?_⟩
    rw [List.cons_append, stringBytes_plain noQuote (ne_escape noEnd noEscape) printable]
    exact same rest
  all_goals simp [fail] at read

theorem string_cuts {x : String} (read : string s = .ok (x, r)) :
    Cuts s r fun a c => string a = .ok (x, c) := by
  unfold string at read
  split at read
  · simp at read
  · rename_i bytes u found
    split at read
    · rename_i text
      obtain ⟨rfl, rfl⟩ := Prod.mk.inj (Except.ok.inj read)
      obtain ⟨t, rfl, same⟩ := stringBytes_extent found
      refine ⟨t, rfl, fun rest _ => ?_⟩
      simp only [string, same, text]
    · simp [fail] at read

/-! ### Numbers

A reader of digits may leave more of them behind, where their number grows too large. So what is
left need not be a byte at which numbers stop, and what is cut off is any end of it. -/

section Numbers

variable {positive : Bool} {sig count : Nat} {start : Int} {n : Number}

theorem takeDigits_cuts {sig' count' : Nat} (read : takeDigits sig count s = (sig', count', r)) :
    Cuts s r fun a c => takeDigits sig count a = (sig', count', c) := by
  induction s generalizing sig count with
  | nil =>
    obtain ⟨rfl, rfl, rfl⟩ := read
    exact .stay_nil rfl
  | cons b s ih =>
    rw [takeDigits] at read
    split at read
    · rename_i digit
      simp only at read
      split at read
      · rename_i small
        refine (ih read).behind fun a c same => ?_
        rw [takeDigits, if_pos digit]
        simp only [if_pos small, same]
      · rename_i large
        obtain ⟨rfl, rfl, rfl⟩ := read
        refine .stay rfl fun t => ?_
        rw [takeDigits, if_pos digit]
        simp only [if_neg large]
    · rename_i noDigit
      obtain ⟨rfl, rfl, rfl⟩ := read
      exact .stay rfl fun t => by rw [takeDigits, if_neg noDigit]

theorem skipDigits_cuts {count' : Nat} (read : skipDigits count s = (count', r)) :
    Cuts s r fun a c => skipDigits count a = (count', c) := by
  induction s generalizing count with
  | nil =>
    obtain ⟨rfl, rfl⟩ := read
    exact .stay_nil rfl
  | cons b s ih =>
    rw [skipDigits] at read
    split at read
    · rename_i digit
      refine (ih read).behind fun a c same => ?_
      rw [skipDigits, if_pos digit, same]
    · rename_i noDigit
      obtain ⟨rfl, rfl⟩ := read
      exact .stay rfl fun t => by rw [skipDigits, if_neg noDigit]

theorem exponentDigits_cuts {e e' : Nat} {fits : Bool}
    (read : exponentDigits e s = (e', fits, r)) :
    Cuts s r fun a c => exponentDigits e a = (e', fits, c) := by
  induction s generalizing e with
  | nil =>
    obtain ⟨rfl, rfl, rfl⟩ := read
    exact .stay_nil rfl
  | cons b s ih =>
    rw [exponentDigits] at read
    split at read
    · rename_i digit
      simp only at read
      split at read
      · rename_i small
        refine (ih read).behind fun a c same => ?_
        rw [exponentDigits, if_pos digit]
        simp only [if_pos small, same]
      · rename_i large
        obtain ⟨rfl, rfl, rfl⟩ := read
        refine ⟨[b], rfl, fun rest _ => ?_⟩
        change exponentDigits _ (b :: rest) = _
        rw [exponentDigits, if_pos digit]
        simp only [if_neg large]
    · rename_i noDigit
      obtain ⟨rfl, rfl, rfl⟩ := read
      exact .stay rfl fun t => by rw [exponentDigits, if_neg noDigit]

theorem floatToken_free (read : floatToken positive sig start s = .ok (n, r)) :
    s = r ∧ ∀ c, floatToken positive sig start c = .ok (n, c) := by
  obtain rfl := floatToken_rest read
  refine ⟨rfl, fun c => ?_⟩
  unfold floatToken at read ⊢
  split at read
  · obtain ⟨rfl, -⟩ := Prod.mk.inj (Except.ok.inj read)
    rfl
  · simp [fail] at read

theorem integerToken_free (read : integerToken positive sig s = .ok (n, r)) :
    s = r ∧ ∀ c, integerToken positive sig c = .ok (n, c) := by
  obtain rfl := integerToken_rest read
  refine ⟨rfl, fun c => ?_⟩
  unfold integerToken at read ⊢
  extract_lets at read ⊢
  split at read
  · rename_i word
    obtain ⟨rfl, -⟩ := Prod.mk.inj (Except.ok.inj read)
    rw [dif_pos word]
  · rename_i noWord
    rw [dif_neg noWord]
    exact (floatToken_free read).2 c

theorem exponentAfterSign_cuts {up : Bool}
    (read : exponentAfterSign positive sig start up s = .ok (n, r)) :
    Cuts s r fun a c => exponentAfterSign positive sig start up a = .ok (n, c) := by
  cases s with
  | nil => simp [exponentAfterSign, fail] at read
  | cons b s =>
    rw [exponentAfterSign] at read
    split at read
    · rename_i digit
      split at read
      · rename_i e u digits
        obtain ⟨rfl, free⟩ := floatToken_free read
        refine (exponentDigits_cuts digits).behind fun a c same => ?_
        rw [exponentAfterSign, if_pos digit, same]
        exact free c
      · rename_i e u digits
        split at read
        · simp [fail] at read
        · rename_i tiny
          obtain ⟨rfl, free⟩ := floatToken_free read
          rcases skipped : skipDigits 0 u with ⟨count, v⟩
          simp only
          refine ((exponentDigits_cuts digits).trans (skipDigits_cuts skipped)).behind
            fun a c both => ?_
          obtain ⟨between, same, same'⟩ := both
          rw [exponentAfterSign, if_pos digit, same]
          simp only [if_neg tiny, same']
          exact free c
    · simp [fail] at read

theorem exponent_of_digit (read : exponentAfterSign positive sig start true s = .ok (n, r)) :
    exponent positive sig start s = .ok (n, r) := by
  cases s with
  | nil => simp [exponentAfterSign, fail] at read
  | cons b s =>
    have digit : isDigit b = true := by
      rw [exponentAfterSign] at read
      split at read
      · assumption
      · simp [fail] at read
    have plus : b ≠ 0x2B := by rintro rfl; simp [isDigit] at digit
    have minus : b ≠ 0x2D := by rintro rfl; simp [isDigit] at digit
    rw [exponent_eq]
    simpa [exponentSign, plus, minus] using read

theorem exponent_cuts (read : exponent positive sig start s = .ok (n, r)) :
    Cuts s r fun a c => exponent positive sig start a = .ok (n, c) := by
  rw [exponent_eq] at read
  cases s with
  | nil => simp [exponentSign, exponentAfterSign, fail] at read
  | cons b s =>
    have behind_sign {up : Bool} (same : ∀ t, exponentSign (b :: t) = (up, t)) :
        Cuts (b :: s) r fun a c => exponent positive sig start a = .ok (n, c) := by
      rw [same] at read
      exact (exponentAfterSign_cuts read).behind fun a c found => by rwa [exponent_eq, same]
    by_cases plus : b = 0x2B
    · subst plus
      exact behind_sign fun t => rfl
    by_cases minus : b = 0x2D
    · subst minus
      exact behind_sign fun t => rfl
    have none : exponentSign (b :: s) = (true, b :: s) := by simp [exponentSign, plus, minus]
    rw [none] at read
    exact (exponentAfterSign_cuts read).imp fun a c found => exponent_of_digit found

theorem afterDigits_cuts (read : afterDigits positive sig start s = .ok (n, r)) :
    Cuts s r fun a c => afterDigits positive sig start a = .ok (n, c) := by
  cases s with
  | nil =>
    obtain ⟨rfl, free⟩ := floatToken_free read
    exact .stay_nil (free [])
  | cons b s =>
    rw [afterDigits] at read
    split at read
    · rename_i mark
      exact (exponent_cuts read).behind fun a c found => by rwa [afterDigits, if_pos mark]
    · rename_i noMark
      obtain ⟨rfl, free⟩ := floatToken_free read
      exact .stay (free []) fun t => by rw [afterDigits, if_neg noMark, free]

theorem fraction_cuts (read : fraction positive sig start s = .ok (n, r)) :
    Cuts s r fun a c => fraction positive sig start a = .ok (n, c) := by
  rw [fraction] at read
  rcases taken : takeDigits sig 0 s with ⟨sig', count, u⟩
  rcases skipped : skipDigits 0 u with ⟨more, v⟩
  simp only [taken, skipped] at read
  split at read
  · split at read
    · simp [fail] at read
    · simp [failOn] at read
  · rename_i some_digit
    refine ((takeDigits_cuts taken).trans ((skipDigits_cuts skipped).trans
      (afterDigits_cuts read))).imp fun a c all => ?_
    obtain ⟨b, same, b', same', found⟩ := all
    simp only [fraction, same, same', if_neg some_digit, found]

theorem afterInteger_cuts (read : afterInteger positive sig s = .ok (n, r)) :
    Cuts s r fun a c => afterInteger positive sig a = .ok (n, c) := by
  cases s with
  | nil =>
    obtain ⟨rfl, free⟩ := integerToken_free read
    exact .stay_nil (free [])
  | cons b s =>
    rw [afterInteger] at read
    split at read
    · rename_i point
      exact (fraction_cuts read).behind fun a c found => by rwa [afterInteger, if_pos point]
    · rename_i noPoint
      split at read
      · rename_i mark
        exact (exponent_cuts read).behind fun a c found => by
          rwa [afterInteger, if_neg noPoint, if_pos mark]
      · rename_i noMark
        obtain ⟨rfl, free⟩ := integerToken_free read
        exact .stay (free []) fun t => by
          rw [afterInteger, if_neg noPoint, if_neg noMark, free]

theorem unsigned_zero_cuts (read : unsigned positive (0x30 :: s) = .ok (n, r)) :
    Cuts s r fun a c => unsigned positive (0x30 :: a) = .ok (n, c) := by
  simp only [unsigned, if_true] at read ⊢
  have rest_read : afterInteger positive 0 s = .ok (n, r) ∧
      ∀ d t, s = d :: t → isDigit d = false := by
    split at read
    · rename_i c u
      split at read
      · simp [failOn] at read
      · rename_i noDigit
        refine ⟨read, fun d t same => ?_⟩
        obtain ⟨rfl, -⟩ := List.cons.inj same
        simpa using noDigit
    · exact ⟨read, fun d t same => by cases same⟩
  obtain ⟨t, rfl, same⟩ := afterInteger_cuts rest_read.1
  refine ⟨t, rfl, fun rest before => ?_⟩
  have kept := same rest before
  -- What is kept of the text begins as the text did, if anything is kept.
  cases cut : t ++ rest with
  | nil => rwa [cut] at kept
  | cons d u =>
    have noDigit : isDigit d = false := by
      obtain ⟨more, rfl⟩ := before
      exact rest_read.2 d (u ++ more) (by rw [← List.append_assoc, cut, List.cons_append])
    rw [cut] at kept
    simp only [noDigit, Bool.false_eq_true, if_false]
    exact kept

theorem point_cuts {sig : Nat} {more : Nat}
    (read : (match s with
      | 0x2E :: t => fraction positive sig more t
      | _ => afterDigits positive sig more s) = .ok (n, r)) :
    Cuts s r fun a c => (match a with
      | 0x2E :: t => fraction positive sig more t
      | _ => afterDigits positive sig more a) = .ok (n, c) := by
  split at read
  · exact (fraction_cuts read).behind fun a c found => found
  · rename_i noPoint
    obtain ⟨t, rfl, same⟩ := afterDigits_cuts read
    refine ⟨t, rfl, fun rest before => ?_⟩
    dsimp only
    split
    · rename_i u cut
      obtain ⟨behind, rfl⟩ := before
      exact absurd (by rw [← List.append_assoc, cut, List.cons_append]) (noPoint (u ++ behind))
    · exact same rest before

theorem unsigned_cuts (read : unsigned positive s = .ok (n, r)) :
    Cuts s r fun a c => unsigned positive a = .ok (n, c) := by
  cases s with
  | nil => simp [unsigned, fail] at read
  | cons b s =>
    by_cases zero : b = 0x30
    · subst zero
      exact (unsigned_zero_cuts read).behind fun a c found => found
    · simp only [unsigned, if_neg zero] at read
      split at read
      · rename_i digit
        rcases taken : takeDigits (b.toNat - 0x30) 1 s with ⟨sig, count, u⟩
        rcases skipped : skipDigits 0 u with ⟨more, v⟩
        simp only [taken, skipped] at read
        have digits := (takeDigits_cuts taken).trans (skipDigits_cuts skipped)
        split at read
        · rename_i exact_
          refine (digits.trans (afterInteger_cuts read)).behind fun a c all => ?_
          obtain ⟨d, ⟨e, same, same'⟩, found⟩ := all
          simp only [unsigned, if_neg zero, if_pos digit, same, same', if_pos exact_, found]
        · rename_i inexact
          refine (digits.trans (point_cuts read)).behind fun a c all => ?_
          obtain ⟨d, ⟨e, same, same'⟩, found⟩ := all
          simp only [unsigned, if_neg zero, if_pos digit, same, same', if_neg inexact]
          exact found
      · simp [fail] at read

theorem number_cuts (read : number s = .ok (n, r)) :
    Cuts s r fun a c => number a = .ok (n, c) := by
  unfold number at read
  split at read
  · exact (unsigned_cuts read).behind fun a c found => found
  · exact (unsigned_cuts read).imp fun a c found => number_of_unsigned found

end Numbers

/-! ### Values -/

theorem skipBlank_eq_cons_iff : skipBlank s = b :: t ↔
    ∃ w, s = w ++ b :: t ∧ skipBlank w = [] ∧ isBlankByte b = false := by
  constructor
  · intro start
    have solid := skipBlank_solid start
    induction s with
    | nil => simp [skipBlank] at start
    | cons c s ih =>
      rw [skipBlank] at start
      split at start
      · rename_i blank
        obtain ⟨w, rfl, empty, -⟩ := ih start
        exact ⟨c :: w, rfl, by rwa [skipBlank, if_pos blank], solid⟩
      · exact ⟨[], start, rfl, solid⟩
  · rintro ⟨w, rfl, empty, solid⟩
    rw [skipBlank_blanks_append empty, skipBlank_cons t solid]

/-- What comes before the byte `b` does not depend on what is behind it. -/
def Leading (s : Bytes) (b : UInt8) (t : Bytes) (stands : Bytes → Bytes → Prop) : Prop :=
  ∃ w, s = w ++ b :: t ∧ ∀ behind, stands (w ++ b :: behind) behind

theorem leading_skipBlank (start : skipBlank s = b :: t) :
    Leading s b t fun a behind => skipBlank a = b :: behind := by
  obtain ⟨w, rfl, empty, solid⟩ := skipBlank_eq_cons_iff.mp start
  exact ⟨w, rfl, fun behind => skipBlank_eq_cons_iff.mpr ⟨w, rfl, empty, solid⟩⟩

theorem leading_next {close : UInt8} {more : Bool} (next : Next close more s b t) :
    Leading s b t fun a behind => Next close more a b behind := by
  cases next with
  | first start other =>
    obtain ⟨w, rfl, same⟩ := leading_skipBlank start
    exact ⟨w, rfl, fun behind => .first (same behind) other⟩
  | later comma start other =>
    obtain ⟨w, rfl, same⟩ := leading_skipBlank comma
    obtain ⟨w', rfl, same'⟩ := leading_skipBlank start
    exact ⟨w ++ 0x2C :: w', by simp, fun behind =>
      .later (by simpa using same (w' ++ b :: behind)) (same' behind) other⟩

theorem Cuts.lead (leading : Leading s b t first) (cuts : Cuts t r read) :
    Cuts s r fun a c => ∃ behind, first a behind ∧ read behind c ∧
      c.length ≤ behind.length ∧ behind.length < a.length := by
  obtain ⟨w, rfl, same⟩ := leading
  obtain ⟨t, rfl, same'⟩ := cuts
  refine ⟨w ++ b :: t, by simp, fun rest before => ⟨t ++ rest, ?_, same' rest before, ?_, ?_⟩⟩
  · simpa using same (t ++ rest)
  · simp
  · simp
    omega

/-- Something is read, and with any fuel that covers its bytes. -/
def Covered (slack : Nat) (read : Nat → Bytes → Bytes → Prop) (a c : Bytes) : Prop :=
  c.length < a.length ∧ ∀ more, 2 * (a.length - c.length) ≤ more + slack → read more a c

/-- Fuel that covers some bytes is more than none. -/
theorem Covered.of_succ {slack : Nat} {reads : Nat → Bytes → Bytes → Prop} {a c : Bytes}
    (small : slack ≤ 1) (shorter : c.length < a.length)
    (next : ∀ more, 2 * (a.length - c.length) ≤ more + 1 + slack → reads (more + 1) a c) :
    Covered slack reads a c := by
  refine ⟨shorter, fun more enough => ?_⟩
  cases more with
  | zero => omega
  | succ more => exact next more enough

theorem close_cuts (close : skipBlank s = b :: r) :
    Cuts s r fun a c => skipBlank a = b :: c ∧ c.length < a.length := by
  refine ((Cuts.refl r).lead (leading_skipBlank close)).imp fun a c all => ?_
  obtain ⟨_, ends, rfl, -, shorter⟩ := all
  exact ⟨ends, shorter⟩

/-- What the four readers give with some fuel, they give where the text is cut off behind it and
with as much fuel as its bytes need. -/
structure ReadersCut (fuel : Nat) : Prop where
  value : ∀ {depth s v r}, value fuel depth s = .ok (v, r) →
    Cuts s r (Covered 0 fun more a c => value more depth a = .ok (v, c))
  items : ∀ {depth first acc s v r}, items fuel depth first acc s = .ok (v, r) →
    Cuts s r (Covered 0 fun more a c => items more depth first acc a = .ok (v, c))
  members : ∀ {depth first acc s v r}, members fuel depth first acc s = .ok (v, r) →
    Cuts s r (Covered 0 fun more a c => members more depth first acc a = .ok (v, c))
  member : ∀ {depth acc s v r}, member fuel depth acc s = .ok (v, r) →
    Cuts s r (Covered 1 fun more a c => member more depth acc a = .ok (v, c))

section Step

variable {fuel depth : Nat} {v : Json} (cut : ReadersCut fuel)
include cut

theorem valueStep_cuts (step : ValueStep fuel depth b t v r) :
    Cuts t r fun a c => ∀ more, 2 * (a.length - c.length) ≤ more →
      ValueStep more depth b a v c := by
  cases step with
  | null first word => exact (expect_cuts word).imp fun _ _ found _ _ => .null first found
  | true first word => exact (expect_cuts word).imp fun _ _ found _ _ => .true first found
  | false first word => exact (expect_cuts word).imp fun _ _ found _ _ => .false first found
  | str first token => exact (string_cuts token).imp fun _ _ found _ _ => .str first found
  | arr first deep inside =>
    exact (cut.items inside).imp fun _ _ found more enough =>
      .arr first deep (found.2 more enough)
  | obj first deep inside =>
    exact (cut.members inside).imp fun _ _ found more enough =>
      .obj first deep (found.2 more enough)
  | @num n _ first token =>
    have shorter : ∀ a c, number a = .ok (n, c) → c.length < a.length := fun a c found =>
      length_skipNumber (skipNumber_of_number found)
    exact ((number_cuts token).uncons shorter).imp fun _ _ found _ _ => .num first found

theorem value_cuts_succ (read : value (fuel + 1) depth s = .ok (v, r)) :
    Cuts s r (Covered 0 fun more a c => value more depth a = .ok (v, c)) := by
  obtain ⟨b, t, start, step⟩ := value_succ_iff.mp read
  refine ((valueStep_cuts cut step).lead (leading_skipBlank start)).imp fun a c all => ?_
  obtain ⟨behind, begins, goes_on, less, shorter⟩ := all
  refine .of_succ (by omega) (by omega) fun more enough => ?_
  exact value_succ_iff.mpr ⟨b, behind, begins, goes_on more (by omega)⟩

theorem items_cut_succ {first : Bool} {acc : List Json}
    (read : items (fuel + 1) depth first acc s = .ok (v, r)) :
    Cuts s r (Covered 0 fun more a c => items more depth first acc a = .ok (v, c)) := by
  rcases items_succ_iff.mp read with ⟨close, rfl⟩ | ⟨b, t, x, u, next, item, others⟩
  · refine (close_cuts close).imp fun a c ends => ?_
    exact .of_succ (by omega) ends.2 fun _ _ => items_succ_iff.mpr (.inl ⟨ends.1, rfl⟩)
  · have inside := ((cut.value item).trans (cut.items others)).uncons fun a c both => by
      obtain ⟨between, one, other⟩ := both
      exact Nat.lt_trans other.1 one.1
    refine (inside.lead (leading_next next)).imp fun a c all => ?_
    obtain ⟨behind, stands, ⟨between, ⟨less, one⟩, less', other⟩, -, shorter⟩ := all
    rw [List.length_cons] at less one
    refine .of_succ (by omega) (by omega) fun more enough => ?_
    exact items_succ_iff.mpr (.inr ⟨b, behind, x, between, stands, one more (by omega),
      other more (by omega)⟩)

theorem members_cut_succ {first : Bool} {acc : List (String × Json)}
    (read : members (fuel + 1) depth first acc s = .ok (v, r)) :
    Cuts s r (Covered 0 fun more a c => members more depth first acc a = .ok (v, c)) := by
  rcases members_succ_iff.mp read with ⟨close, rfl⟩ | ⟨b, t, next, one⟩
  · refine (close_cuts close).imp fun a c ends => ?_
    exact .of_succ (by omega) ends.2 fun _ _ => members_succ_iff.mpr (.inl ⟨ends.1, rfl⟩)
  · have inside := (cut.member one).uncons fun a c found => found.1
    refine (inside.lead (leading_next next)).imp fun a c all => ?_
    obtain ⟨behind, stands, ⟨less, found⟩, -, shorter⟩ := all
    rw [List.length_cons] at less found
    refine .of_succ (by omega) (by omega) fun more enough => ?_
    exact members_succ_iff.mpr (.inr ⟨b, behind, stands, found more (by omega)⟩)

theorem member_cuts_succ {acc : List (String × Json)}
    (read : member (fuel + 1) depth acc s = .ok (v, r)) :
    Cuts s r (Covered 1 fun more a c => member more depth acc a = .ok (v, c)) := by
  obtain ⟨key, t, u, x, w, rfl, token, ⟨c, colon, found⟩, others⟩ := member_succ_iff.mp read
  have behind_key := ((cut.value found).trans (cut.members others)).lead (leading_skipBlank colon)
  refine ((string_cuts token).trans behind_key).behind fun a d all => ?_
  obtain ⟨u, named, behind, stands, ⟨between, ⟨less, one⟩, less', other⟩, -, shorter⟩ := all
  have quoted := length_skipString (skipString_of_string named)
  refine .of_succ (Nat.le_refl 1) (by rw [List.length_cons]; omega) fun more enough => ?_
  rw [List.length_cons] at enough
  exact member_succ_iff.mpr ⟨key, _, u, x, between, rfl, named,
    ⟨behind, stands, one more (by omega)⟩, other more (by omega)⟩

end Step

theorem readersCut (fuel : Nat) : ReadersCut fuel := by
  induction fuel with
  | zero => constructor <;> intros <;> simp_all [value, items, members, member, fail]
  | succ fuel ih =>
    exact ⟨value_cuts_succ ih, items_cut_succ ih, members_cut_succ ih, member_cuts_succ ih⟩

variable {fuel depth : Nat} {v : Json}

/-- A value ends where it ends, whatever is cut off behind it, and its own bytes give the fuel. -/
theorem value_extent (read : value fuel depth s = .ok (v, r)) :
    ∃ t, s = t ++ r ∧ ∀ more rest, 2 * t.length ≤ more → rest <+: r →
      value more depth (t ++ rest) = .ok (v, rest) := by
  obtain ⟨t, rfl, same⟩ := (readersCut fuel).value read
  refine ⟨t, rfl, fun more rest enough before => (same rest before).2 more ?_⟩
  rw [List.length_append]
  omega

/-- The length of a text gives the fuel for it. -/
theorem value_fuelFor (read : value fuel depth s = .ok (v, r)) :
    value (fuelFor s) depth s = .ok (v, r) := by
  obtain ⟨t, rfl, same⟩ := value_extent read
  exact same _ r (by simp only [fuelFor, List.length_append]; omega) (List.prefix_refl r)

end ScriptGate.Json
