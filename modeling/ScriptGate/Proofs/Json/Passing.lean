import ScriptGate.Json.Skip
import ScriptGate.Proofs.Json.Context
import ScriptGate.Proofs.Json.Reading

/-!
# What can be read can be passed over

Passing over a value ends where reading it ends, however many containers are open around it.
-/

namespace ScriptGate.Json

variable {fuel depth : Nat} {s r t : Bytes} {v : Json}

/-! ### Strings -/

theorem skipString_plain {b : UInt8} (noQuote : b ≠ 0x22) (noEscape : b ≠ 0x5C)
    (noControl : ¬ b < 0x20) (r : Bytes) : skipString (b :: r) = skipString r := by
  rw [skipString]
  · simp [noControl]
  all_goals simp_all

theorem skipString_of_stringBytes {acc b : Bytes} (read : stringBytes acc s = .ok (b, r)) :
    skipString s = .ok r := by
  fun_induction stringBytes acc s
  case case7 quad _ _ _ _ _ _ _ _ pair _ _ ih =>
    -- Two escapes that write one character are passed over one by one.
    simpa [skipString, quad, pair] using ih read
  case case19 c t noQuote noEnd _ _ noEscape printable ih =>
    rw [skipString_plain noQuote (ne_escape noEnd noEscape) printable]
    exact ih read
  all_goals simp_all [skipString, fail]

theorem skipString_of_string {x : String} (read : string s = .ok (x, r)) :
    skipString s = .ok r := by
  unfold string at read
  split at read
  · simp at read
  · rename_i found
    split at read
    · obtain ⟨-, rfl⟩ := Prod.mk.inj (Except.ok.inj read)
      exact skipString_of_stringBytes found
    · simp [fail] at read

/-! ### Numbers -/

theorem skipDigits_eq (count : Nat) (s : Bytes) :
    skipDigits count s = (count + (skipDigits 0 s).1, (skipDigits 0 s).2) := by
  induction s generalizing count with
  | nil => rfl
  | cons b s ih =>
    simp only [skipDigits]
    split
    · rw [ih (count + 1), ih (0 + 1)]
      simp [Nat.add_assoc]
    · rfl

/-- Digits that no longer fit are still digits. -/
theorem skipDigits_takeDigits (sig count : Nat) (s : Bytes) :
    skipDigits (takeDigits sig count s).2.1 (takeDigits sig count s).2.2 = skipDigits count s := by
  induction s generalizing sig count with
  | nil => rfl
  | cons b s ih =>
    simp only [takeDigits]
    split
    · rename_i digit
      split
      · rw [ih, skipDigits, if_pos digit]
      · rfl
    · rfl

theorem skipDigits_exponentDigits (e : Nat) (s : Bytes) :
    (skipDigits 0 (exponentDigits e s).2.2).2 = (skipDigits 0 s).2 := by
  induction s generalizing e with
  | nil => rfl
  | cons b s ih =>
    simp only [exponentDigits]
    split
    · rename_i digit
      have behind : (skipDigits 0 (b :: s)).2 = (skipDigits 0 s).2 := by
        rw [skipDigits, if_pos digit, skipDigits_eq]
      rw [behind]
      split
      · exact ih _
      · rfl
    · rfl

theorem exponentDigits_whole {e last : Nat} (read : exponentDigits e s = (last, true, r)) :
    (skipDigits 0 s).2 = r := by
  induction s generalizing e with
  | nil => simp [exponentDigits] at read; simp [skipDigits, read]
  | cons b s ih =>
    rw [exponentDigits] at read
    split at read
    · rename_i digit
      rw [skipDigits, if_pos digit, skipDigits_eq]
      simp only at read
      split at read
      · exact ih read
      · simp at read
    · rename_i noDigit
      rw [skipDigits, if_neg noDigit]
      simp only [Prod.mk.injEq, true_and] at read
      exact read.2

section Numbers

variable {positive : Bool} {sig : Nat} {start : Int} {n : Number}

theorem floatToken_rest (read : floatToken positive sig start s = .ok (n, r)) : s = r := by
  unfold floatToken at read
  split at read
  · exact (Prod.mk.inj (Except.ok.inj read)).2
  · simp [fail] at read

theorem integerToken_rest (read : integerToken positive sig s = .ok (n, r)) : s = r := by
  unfold integerToken at read
  extract_lets i at read
  split at read
  · exact (Prod.mk.inj (Except.ok.inj read)).2
  · exact floatToken_rest read

theorem skipExponent_of_exponent (read : exponent positive sig start s = .ok (n, r)) :
    skipExponent s = .ok r := by
  have same : skipExponent s =
      if (skipDigits 0 (exponentSign s).2).1 = 0 then
        fail .badNumber ((skipDigits 0 (exponentSign s).2).2.drop 1)
      else .ok (skipDigits 0 (exponentSign s).2).2 := by
    cases s with
    | nil => rfl
    | cons b s =>
      by_cases plus : b = 0x2B
      · subst plus; rfl
      by_cases minus : b = 0x2D
      · subst minus; rfl
      simp [skipExponent, exponentSign, plus, minus]
  rw [exponent_eq] at read
  rw [same]
  generalize (exponentSign s).2 = t at read ⊢
  cases t with
  | nil => simp [exponentAfterSign, fail] at read
  | cons b t =>
    rw [exponentAfterSign] at read
    split at read
    · rename_i digit
      have digits : skipDigits 0 (b :: t) = (1 + (skipDigits 0 t).1, (skipDigits 0 t).2) := by
        rw [skipDigits, if_pos digit, skipDigits_eq]
      rw [digits, if_neg (by simp)]
      split at read
      · rename_i whole
        rw [exponentDigits_whole whole, floatToken_rest read]
      · rename_i behind large
        have rest := skipDigits_exponentDigits (b.toNat - 0x30) t
        rw [large] at rest
        split at read
        · simp [fail] at read
        · rw [← rest, floatToken_rest read]
    · simp [fail] at read

theorem skipAfterDigits_of_afterDigits (read : afterDigits positive sig start s = .ok (n, r)) :
    skipAfterDigits s = .ok r := by
  cases s with
  | nil => rw [← floatToken_rest read]; rfl
  | cons b s =>
    rw [afterDigits] at read
    rw [skipAfterDigits]
    split at read
    · rename_i mark
      rw [if_pos mark]
      exact skipExponent_of_exponent read
    · rename_i noMark
      rw [if_neg noMark, floatToken_rest read]

theorem skipAfterInteger_of_fraction (read : fraction positive sig start s = .ok (n, r)) :
    skipAfterInteger (0x2E :: s) = .ok r := by
  have digits := skipDigits_takeDigits sig 0 s
  rw [fraction] at read
  rw [skipAfterInteger]
  rcases takeDigits sig 0 s with ⟨taken, count, t⟩
  simp only at digits read ⊢
  rw [skipDigits_eq] at digits
  rw [← digits]
  split at read
  · split at read
    · simp [fail] at read
    · simp [failOn] at read
  · rename_i some_digit
    rw [if_neg some_digit]
    exact skipAfterDigits_of_afterDigits read

theorem skipAfterInteger_of_ne (noPoint : ∀ t, s ≠ 0x2E :: t) :
    skipAfterInteger s = skipAfterDigits s := by
  unfold skipAfterInteger
  split
  · exact absurd rfl (noPoint _)
  · rfl

theorem skipAfterInteger_of_afterInteger (read : afterInteger positive sig s = .ok (n, r)) :
    skipAfterInteger s = .ok r := by
  cases s with
  | nil => rw [← integerToken_rest read]; rfl
  | cons b s =>
    rw [afterInteger] at read
    split at read
    · rename_i point
      subst point
      exact skipAfterInteger_of_fraction read
    · rename_i noPoint
      rw [skipAfterInteger_of_ne fun _ same => noPoint (List.cons.inj same).1, skipAfterDigits]
      split at read
      · rename_i mark
        rw [if_pos mark]
        exact skipExponent_of_exponent read
      · rename_i noMark
        rw [if_neg noMark, integerToken_rest read]

/-- What follows the sign of a number. -/
def skipUnsigned (s : Bytes) : Except SyntaxError Bytes :=
  match s with
  | [] => fail .endInValue []
  | b :: r =>
    if b = 0x30 then
      match r with
      | c :: _ => if isDigit c then failOn .badNumber r else skipAfterInteger r
      | [] => .ok []
    else if isDigit b then skipAfterInteger (skipDigits 0 r).2
    else fail .badNumber r

theorem skipUnsigned_of_unsigned (read : unsigned positive s = .ok (n, r)) :
    skipUnsigned s = .ok r := by
  cases s with
  | nil => simp [unsigned, fail] at read
  | cons b s =>
    simp only [unsigned] at read
    simp only [skipUnsigned]
    split at read
    · rename_i zero
      rw [if_pos zero]
      split at read
      · split at read
        · simp [failOn] at read
        · rename_i noDigit
          simp only [if_neg noDigit]
          exact skipAfterInteger_of_afterInteger read
      · rw [← integerToken_rest read]
    · rename_i notZero
      rw [if_neg notZero]
      split at read
      · rename_i digit
        rw [if_pos digit]
        have digits := skipDigits_takeDigits (b.toNat - 0x30) 1 s
        rcases takeDigits (b.toNat - 0x30) 1 s with ⟨taken, count, t⟩
        rw [skipDigits_eq, skipDigits_eq 1] at digits
        rw [← (Prod.mk.inj digits).2]
        split at read
        · exact skipAfterInteger_of_afterInteger read
        · split at read
          · rename_i point
            rw [point]
            exact skipAfterInteger_of_fraction read
          · rename_i noPoint
            rw [skipAfterInteger_of_ne noPoint]
            exact skipAfterDigits_of_afterDigits read
      · simp [fail] at read

theorem skipNumber_of_no_sign {b : UInt8} (noSign : b ≠ 0x2D) (s : Bytes) :
    skipNumber (b :: s) = skipUnsigned (b :: s) := by
  unfold skipNumber
  extract_lets t
  have same : t = b :: s := by
    simp only [t]
    split
    · rename_i equal
      exact absurd (List.cons.inj equal).1 noSign
    · rfl
  rw [same]
  rfl

theorem skipNumber_of_number (read : number s = .ok (n, r)) : skipNumber s = .ok r := by
  cases s with
  | nil => simp [number, unsigned, fail] at read
  | cons b s =>
    by_cases minus : b = 0x2D
    · subst minus
      exact skipUnsigned_of_unsigned read
    · rw [skipNumber_of_no_sign minus]
      have unsigned_read : unsigned true (b :: s) = .ok (n, r) := by
        simpa [number, minus] using read
      exact skipUnsigned_of_unsigned unsigned_read

end Numbers

/-! ### What is left -/

theorem length_skipBlank (start : skipBlank s = t) : t.length ≤ s.length := by
  subst start
  induction s with
  | nil => exact Nat.le_refl _
  | cons b s ih =>
    rw [skipBlank]
    split
    · exact Nat.le_succ_of_le ih
    · exact Nat.le_refl _

theorem length_expect {ws : Bytes} (read : expect ws s = .ok r) : r.length ≤ s.length := by
  induction ws generalizing s with
  | nil =>
    obtain rfl := Except.ok.inj read
    exact Nat.le_refl _
  | cons w ws ih =>
    cases s with
    | nil => simp [expect, fail] at read
    | cons b s =>
      rw [expect] at read
      split at read
      · exact Nat.le_succ_of_le (ih read)
      · simp [fail] at read

theorem length_skipString (read : skipString s = .ok r) : r.length < s.length := by
  fun_induction skipString s
  all_goals simp_all [fail]
  all_goals omega

theorem length_skipDigits (count : Nat) (s : Bytes) : (skipDigits count s).2.length ≤ s.length := by
  induction s generalizing count with
  | nil => exact Nat.le_refl _
  | cons b s ih =>
    rw [skipDigits]
    split
    · exact Nat.le_succ_of_le (ih _)
    · exact Nat.le_refl _

theorem length_skipExponent (read : skipExponent s = .ok r) : r.length ≤ s.length := by
  unfold skipExponent at read
  extract_lets t at read
  have shorter : t.length ≤ s.length := by
    simp only [t]
    split <;> simp
  split at read
  split at read
  · simp [fail] at read
  · rename_i count u digits _
    obtain rfl := Except.ok.inj read
    have less := length_skipDigits 0 t
    rw [digits] at less
    exact Nat.le_trans less shorter

theorem length_skipAfterDigits (read : skipAfterDigits s = .ok r) : r.length ≤ s.length := by
  unfold skipAfterDigits at read
  split at read
  · split at read
    · exact Nat.le_succ_of_le (length_skipExponent read)
    · obtain rfl := Except.ok.inj read
      exact Nat.le_refl _
  · obtain rfl := Except.ok.inj read
    exact Nat.le_refl _

theorem length_skipAfterInteger (read : skipAfterInteger s = .ok r) : r.length ≤ s.length := by
  unfold skipAfterInteger at read
  split at read
  · rename_i s
    have less := length_skipDigits 0 s
    split at read
    split at read
    · simp [failOn] at read
    · rename_i digits _
      rw [digits] at less
      exact Nat.le_succ_of_le (Nat.le_trans (length_skipAfterDigits read) less)
  · exact length_skipAfterDigits read

theorem length_skipUnsigned (read : skipUnsigned s = .ok r) : r.length < s.length := by
  unfold skipUnsigned at read
  split at read
  · simp [fail] at read
  rename_i b s
  refine Nat.lt_succ_of_le ?_
  split at read
  · split at read
    · split at read
      · simp [failOn] at read
      · exact length_skipAfterInteger read
    · obtain rfl := Except.ok.inj read
      exact Nat.le_refl _
  split at read
  · exact Nat.le_trans (length_skipAfterInteger read) (length_skipDigits 0 s)
  · simp [fail] at read

theorem length_skipNumber (read : skipNumber s = .ok r) : r.length < s.length := by
  have unsigned_read : ∃ t, t.length ≤ s.length ∧ skipUnsigned t = .ok r := by
    refine ⟨_, ?_, read⟩
    split <;> simp
  obtain ⟨t, shorter, read⟩ := unsigned_read
  exact Nat.lt_of_lt_of_le (length_skipUnsigned read) shorter

theorem length_skipScalar {b : UInt8} (read : skipScalar b s = .ok r) : r.length ≤ s.length := by
  unfold skipScalar at read
  split at read
  · exact length_expect read
  split at read
  · exact length_expect read
  split at read
  · exact length_expect read
  split at read
  · exact Nat.le_of_lt (length_skipString read)
  split at read
  · exact Nat.le_of_lt_succ (length_skipNumber read)
  · simp [failOn] at read

/-! ### Values -/

/-- Passing over something at the start of `s` leads to `r`, whatever is open around it. -/
def Leads (s r : Bytes) (skip : Nat → List Bracket → Except SyntaxError Bytes) : Prop :=
  r.length < s.length ∧ ∀ fuel outer, s.length < fuel →
    ∃ left, r.length < left ∧ skip fuel outer = skipRest left outer r

variable {skip next : Nat → List Bracket → Except SyntaxError Bytes}

/-- What is left at once. -/
theorem Leads.here (shorter : r.length < s.length)
    (same : ∀ fuel outer, skip (fuel + 1) outer = skipRest fuel outer r) : Leads s r skip := by
  refine ⟨shorter, fun fuel outer enough => ?_⟩
  obtain ⟨fuel, rfl⟩ : ∃ n, fuel = n + 1 := ⟨fuel - 1, by omega⟩
  exact ⟨fuel, by omega, same fuel outer⟩

theorem Leads.step (further : Leads t r next) (shorter : t.length < s.length)
    (same : ∀ fuel outer, skip (fuel + 1) outer = next fuel outer) : Leads s r skip := by
  refine ⟨Nat.lt_trans further.1 shorter, fun fuel outer enough => ?_⟩
  obtain ⟨fuel, rfl⟩ : ∃ n, fuel = n + 1 := ⟨fuel - 1, by omega⟩
  rw [same]
  exact further.2 fuel outer (by omega)

/-- Behind something inside a container, what is left there is passed over. -/
theorem Leads.trans {bracket : Bracket} (first : Leads s t skip)
    (others : Leads t r fun fuel outer => skipRest fuel (bracket :: outer) t) :
    Leads s r fun fuel outer => skip fuel (bracket :: outer) := by
  refine ⟨Nat.lt_trans others.1 first.1, fun fuel outer enough => ?_⟩
  obtain ⟨left, fits, same⟩ := first.2 fuel (bracket :: outer) enough
  obtain ⟨last, fits, rest⟩ := others.2 left outer fits
  exact ⟨last, fits, same.trans rest⟩

/-- What is left where a container has been opened. -/
def Opened (close : UInt8) (s r : Bytes)
    (skip : Bytes → Nat → List Bracket → Except SyntaxError Bytes) : Prop :=
  skipBlank s = close :: r ∨
    ∃ b t, skipBlank s = b :: t ∧ b ≠ close ∧ Leads (b :: t) r (skip (b :: t))

/-- What is read with some fuel can be passed over. -/
structure ReadersPass (fuel : Nat) : Prop where
  value : ∀ {depth s v r}, value fuel depth s = .ok (v, r) →
    Leads s r fun more outer => skipValue more outer s
  firstItem : ∀ {depth acc s v r}, items fuel depth true acc s = .ok (v, r) →
    Opened 0x5D s r fun t more outer => skipValue more (.array :: outer) t
  items : ∀ {depth acc s v r}, items fuel depth false acc s = .ok (v, r) →
    Leads s r fun more outer => skipRest more (.array :: outer) s
  firstMember : ∀ {depth acc s v r}, members fuel depth true acc s = .ok (v, r) →
    Opened 0x7D s r fun t more outer => skipKey more (.object :: outer) t
  members : ∀ {depth acc s v r}, members fuel depth false acc s = .ok (v, r) →
    Leads s r fun more outer => skipRest more (.object :: outer) s
  member : ∀ {depth acc s v r}, member fuel depth acc s = .ok (v, r) →
    Leads s r fun more outer => skipKey more (.object :: outer) s

theorem value_scalar_passes {b : UInt8} (start : skipBlank s = b :: t) (noArray : b ≠ 0x5B)
    (noObject : b ≠ 0x7B) (scalar : skipScalar b t = .ok r) :
    Leads s r fun more outer => skipValue more outer s := by
  have shorter := length_skipBlank start
  have rest := length_skipScalar scalar
  refine .here ?_ fun more outer => ?_
  · rw [List.length_cons] at shorter
    omega
  · simp [skipValue, start, noArray, noObject, scalar]

theorem value_passes (pass : ReadersPass fuel) (read : value (fuel + 1) depth s = .ok (v, r)) :
    Leads s r fun more outer => skipValue more outer s := by
  obtain ⟨b, t, start, step⟩ := value_succ_iff.mp read
  have shorter := length_skipBlank start
  rw [List.length_cons] at shorter
  cases step with
  | null first word => subst first; exact value_scalar_passes start (by decide) (by decide) word
  | true first word => subst first; exact value_scalar_passes start (by decide) (by decide) word
  | false first word => subst first; exact value_scalar_passes start (by decide) (by decide) word
  | str first token =>
    subst first
    exact value_scalar_passes start (by decide) (by decide) (skipString_of_string token)
  | num first token =>
    have other {c : UInt8} (plain : ¬ (c = 0x2D ∨ isDigit c = true)) : b ≠ c :=
      fun same => plain (same ▸ first)
    refine value_scalar_passes start (other (by decide)) (other (by decide)) ?_
    rw [skipScalar, if_neg (other (by decide)), if_neg (other (by decide)),
      if_neg (other (by decide)), if_neg (other (by decide)), if_pos first]
    exact skipNumber_of_number token
  | arr first _ inside =>
    subst first
    rcases pass.firstItem inside with close | ⟨c, u, open_, other, leads⟩
    · have rest := length_skipBlank close
      rw [List.length_cons] at rest
      exact .here (by omega) fun more outer => by simp [skipValue, start, close]
    · have rest := length_skipBlank open_
      exact leads.step (by omega) fun more outer => by simp [skipValue, start, open_, other]
  | obj first _ inside =>
    subst first
    rcases pass.firstMember inside with close | ⟨c, u, open_, other, leads⟩
    · have rest := length_skipBlank close
      rw [List.length_cons] at rest
      exact .here (by omega) fun more outer => by simp [skipValue, start, close]
    · have rest := length_skipBlank open_
      exact leads.step (by omega) fun more outer => by simp [skipValue, start, open_, other]

theorem skipValue_skipBlank (fuel : Nat) (outer : List Bracket) (s : Bytes) :
    skipValue fuel outer (skipBlank s) = skipValue fuel outer s := by
  cases fuel with
  | zero => rfl
  | succ fuel => simp [skipValue]

theorem skipKey_skipBlank (fuel : Nat) (outer : List Bracket) (s : Bytes) :
    skipKey fuel outer (skipBlank s) = skipKey fuel outer s := by
  cases fuel with
  | zero => rfl
  | succ fuel => simp [skipKey]

theorem first_item_passes (pass : ReadersPass fuel) {acc : List Json}
    (read : items (fuel + 1) depth true acc s = .ok (v, r)) :
    Opened 0x5D s r fun t more outer => skipValue more (.array :: outer) t := by
  rcases items_succ_iff.mp read with ⟨close, -⟩ | ⟨b, t, x, u, next, item, others⟩
  · exact .inl close
  · cases next with
    | first start other =>
      exact .inr ⟨b, t, start, other, (pass.value item).trans (pass.items others)⟩

theorem items_pass (pass : ReadersPass fuel) {acc : List Json}
    (read : items (fuel + 1) depth false acc s = .ok (v, r)) :
    Leads s r fun more outer => skipRest more (.array :: outer) s := by
  rcases items_succ_iff.mp read with ⟨close, -⟩ | ⟨b, t, x, u, next, item, others⟩
  · have shorter := length_skipBlank close
    exact .here shorter fun more outer => by simp [skipRest, close]
  · cases next with
    | @later _ _ w _ comma start _ =>
      have shorter := length_skipBlank comma
      have rest := length_skipBlank start
      rw [List.length_cons] at shorter
      refine ((pass.value item).trans (pass.items others)).step (by omega) fun more outer => ?_
      rw [← start, skipValue_skipBlank]
      simp [skipRest, comma]

theorem first_member_passes (pass : ReadersPass fuel) {acc : List (String × Json)}
    (read : members (fuel + 1) depth true acc s = .ok (v, r)) :
    Opened 0x7D s r fun t more outer => skipKey more (.object :: outer) t := by
  rcases members_succ_iff.mp read with ⟨close, -⟩ | ⟨b, t, next, one⟩
  · exact .inl close
  · cases next with
    | first start other => exact .inr ⟨b, t, start, other, pass.member one⟩

theorem members_pass (pass : ReadersPass fuel) {acc : List (String × Json)}
    (read : members (fuel + 1) depth false acc s = .ok (v, r)) :
    Leads s r fun more outer => skipRest more (.object :: outer) s := by
  rcases members_succ_iff.mp read with ⟨close, -⟩ | ⟨b, t, next, one⟩
  · have shorter := length_skipBlank close
    exact .here shorter fun more outer => by simp [skipRest, close]
  · cases next with
    | @later _ _ w _ comma start _ =>
      have shorter := length_skipBlank comma
      have rest := length_skipBlank start
      rw [List.length_cons] at shorter
      refine (pass.member one).step (by omega) fun more outer => ?_
      rw [← start, skipKey_skipBlank]
      simp [skipRest, comma]

theorem member_passes (pass : ReadersPass fuel) {acc : List (String × Json)}
    (read : member (fuel + 1) depth acc s = .ok (v, r)) :
    Leads s r fun more outer => skipKey more (.object :: outer) s := by
  obtain ⟨key, t, u, x, w, rfl, token, ⟨c, colon, found⟩, others⟩ := member_succ_iff.mp read
  have passed := skipString_of_string token
  have shorter := length_skipString passed
  have rest := length_skipBlank colon
  rw [List.length_cons] at rest
  refine ((pass.value found).trans (pass.members others)).step ?_ fun more outer => ?_
  · rw [List.length_cons]
    omega
  · simp [skipKey, skipBlank, isBlankByte, passed, colon]

theorem readersPass (fuel : Nat) : ReadersPass fuel := by
  induction fuel with
  | zero => constructor <;> intros <;> simp_all [value, items, members, member, fail]
  | succ fuel ih =>
    exact ⟨value_passes ih, first_item_passes ih, items_pass ih, first_member_passes ih,
      members_pass ih, member_passes ih⟩

/-- A value that is read is not empty, and passing over it ends where reading it ends. -/
theorem skipValue_of_value (read : value fuel depth s = .ok (v, r)) :
    r.length < s.length ∧ ∀ more, s.length < more → skipValue more [] s = .ok r := by
  obtain ⟨shorter, passed⟩ := (readersPass fuel).value read
  refine ⟨shorter, fun more enough => ?_⟩
  obtain ⟨left, some_left, same⟩ := passed more [] enough
  obtain ⟨left, rfl⟩ : ∃ n, left = n + 1 := ⟨left - 1, by omega⟩
  exact same

end ScriptGate.Json
