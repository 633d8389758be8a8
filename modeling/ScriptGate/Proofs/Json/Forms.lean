import ScriptGate.Proofs.Json.Elements
import ScriptGate.Proofs.Json.Grammar

/-!
# The two forms of a record

A record in object form is an object of the grammar, its unknown members too. A record in array form
is read as an array of values, since each of its members is read where a value is.
-/

namespace ScriptGate.Json

variable {σ : Type} {fields : List (Field σ)} {fuel depth : Nat} {st last : σ} {s r : Bytes}

/-- Every member of a record is read where a value is. -/
def Valued (fields : List (Field σ)) : Prop :=
  ∀ f ∈ fields, ∀ fuel depth st s next r, f.read fuel depth st s = .ok (next, r) →
    ∃ v, value (fuel + 1) depth s = .ok (v, r)

theorem value_of_stringValue {x : String} (read : stringValue s = .ok (x, r)) (fuel depth : Nat) :
    value (fuel + 1) depth s = .ok (.str x, r) := by
  unfold stringValue at read
  split at read
  · simp [fail] at read
  · rename_i t start
    exact value_succ_iff.mpr ⟨0x22, t, start, .str rfl read⟩
  · simp [failOn] at read

theorem value_of_optional {x : Option Json} (read : optional (value fuel depth) s = .ok (x, r)) :
    ∃ v, value (fuel + 1) depth s = .ok (v, r) := by
  unfold optional at read
  split at read
  · rename_i t start
    obtain ⟨u, word, same⟩ := map_eq_ok read
    obtain ⟨-, rfl⟩ := Prod.mk.inj same
    exact ⟨.null, value_succ_iff.mpr ⟨0x6E, t, start, .null rfl word⟩⟩
  · split at read
    · rename_i v u found
      obtain ⟨-, rfl⟩ := Prod.mk.inj (Except.ok.inj read)
      rw [value_skipBlank] at found
      exact ⟨v, value_mono found (Nat.le_succ fuel) (Nat.le_refl depth)⟩
    · simp at read

theorem recordMembers_succ {first : Bool}
    (read : recordMembers fields (fuel + 1) depth first st s = .ok (last, r)) :
    skipBlank s = 0x7D :: r ∨
      ∃ b t, Next 0x7D first s b t ∧ recordMember fields fuel depth st (b :: t) = .ok (last, r) := by
  rw [recordMembers] at read
  split at read
  · simp [fail] at read
  rename_i b t start
  split at read
  · subst_vars
    obtain ⟨-, rfl⟩ := Prod.mk.inj (Except.ok.inj read)
    exact .inl start
  rename_i other
  split at read
  · subst_vars
    exact .inr ⟨b, t, .first start other, read⟩
  rename_i notFirst
  obtain rfl : first = false := by simpa using notFirst
  split at read
  · subst_vars
    split at read
    · simp [fail] at read
    rename_i c u begins
    split at read
    · simp [failOn] at read
    · rename_i more
      exact .inr ⟨c, u, .later start begins more, read⟩
  · simp [failOn] at read

theorem recordMember_succ (valued : Valued fields)
    (read : recordMember fields (fuel + 1) depth st s = .ok (last, r)) :
    ∃ next u, MemberText s u ∧ recordMembers fields fuel depth false next u = .ok (last, r) := by
  rw [recordMember.eq_def] at read
  dsimp only at read
  split at read
  · rename_i t
    split at read
    · simp at read
    rename_i key u named
    have quoted := stringRest_of_skipString (skipString_of_string named)
    split at read
    · rename_i f known
      split at read
      · simp [fail] at read
      split at read
      · simp [fail] at read
      rename_i c v colon
      split at read
      · subst_vars
        split at read
        · rename_i next w found
          obtain ⟨x, taken⟩ :=
            valued f (List.mem_of_find?_eq_some known) fuel depth st v next w found
          exact ⟨next, w, .pair quoted (blanks_of_eq colon) (blanks_skipBlank v)
            (valueText_of_value taken), read⟩
        · simp at read
      · simp [failOn] at read
    -- A member that is not known has a value all the same.
    · split at read
      · simp [fail] at read
      rename_i c v colon
      split at read
      · subst_vars
        split at read
        · rename_i w passed
          exact ⟨st, w, .pair quoted (blanks_of_eq colon) (blanks_skipBlank v)
            (valueText_of_skipValue passed), read⟩
        · simp at read
      · simp [failOn] at read
  · simp [failOn] at read

theorem recordReaders_text (valued : Valued fields) :
    (∀ st s last r, recordMembers fields fuel depth false st s = .ok (last, r) →
      ObjectEnd s r) ∧
    ∀ st s last r, recordMember fields fuel depth st s = .ok (last, r) →
      ∃ u, MemberText s u ∧ ObjectEnd u r := by
  induction fuel with
  | zero => simp [recordMembers, recordMember, fail]
  | succ fuel ih =>
    obtain ⟨members, member⟩ := ih
    refine ⟨fun st s last r read => ?_, fun st s last r read => ?_⟩
    · rcases recordMembers_succ read with close | ⟨b, t, next, one⟩
      · exact .close (blanks_of_eq close)
      · cases next with
        | later comma start other =>
          obtain ⟨u, text, rest⟩ := member _ _ _ _ one
          exact .more (blanks_of_eq comma) (blanks_of_eq start) text rest
    · obtain ⟨next, u, text, others⟩ := recordMember_succ valued read
      exact ⟨u, text, members _ _ _ _ others⟩

/-- A record in object form is an object of the grammar. -/
theorem valueText_of_recordMembers (valued : Valued fields)
    (read : recordMembers fields fuel depth true st s = .ok (last, r)) :
    ValueText (0x7B :: s) r := by
  cases fuel with
  | zero => simp [recordMembers, fail] at read
  | succ fuel =>
    rcases recordMembers_succ read with close | ⟨b, t, next, one⟩
    · exact .emptyObject (blanks_of_eq close)
    · cases next with
      | first start other =>
        obtain ⟨u, text, rest⟩ := (recordReaders_text valued).2 _ _ _ _ one
        exact .object (blanks_of_eq start) text rest

theorem recordItems_cons {first : Bool} {f : Field σ}
    (read : recordItems fuel depth first st s (f :: fields) = .ok (last, r)) :
    skipBlank s = 0x5D :: r ∨
      ∃ b t next u, Next 0x5D first s b t ∧ f.read fuel depth st (b :: t) = .ok (next, u) ∧
        recordItems fuel depth false next u fields = .ok (last, r) := by
  rw [recordItems] at read
  split at read
  · simp [fail] at read
  rename_i b t start
  split at read
  · subst_vars
    obtain ⟨-, rfl⟩ := Prod.mk.inj (Except.ok.inj read)
    exact .inl start
  rename_i other
  dsimp only at read
  split at read
  · simp at read
  rename_i u item
  split at read
  · rename_i next w found
    split at item
    · subst_vars
      obtain rfl := Except.ok.inj item
      exact .inr ⟨b, t, next, w, .first start other, found, read⟩
    rename_i notFirst
    obtain rfl : first = false := by simpa using notFirst
    split at item
    · subst_vars
      split at item
      · simp [fail] at item
      rename_i c v begins
      split at item
      · simp [failOn] at item
      · rename_i more
        obtain rfl := Except.ok.inj item
        exact .inr ⟨c, v, next, w, .later start begins more, found, read⟩
    · simp [failOn] at item
  · simp at read

/-- What is read as a record in array form is read as an array of values, with fuel for its items. -/
theorem items_of_recordItems {first : Bool} (valued : Valued fields)
    (read : recordItems fuel depth first st s fields = .ok (last, r)) (acc : List Json) :
    ∃ v, items (fuel + fields.length + 2) depth first acc s = .ok (v, r) := by
  induction fields generalizing first st s acc with
  | nil =>
    have close : skipBlank s = 0x5D :: r := by
      rw [recordItems] at read
      split at read
      · simp [fail] at read
      · split at read
        · subst_vars
          obtain ⟨-, rfl⟩ := Prod.mk.inj (Except.ok.inj read)
          assumption
        split at read
        · split at read <;> simp [failOn] at read
        · simp [failOn] at read
    exact ⟨_, items_succ_iff.mpr (.inl ⟨close, rfl⟩)⟩
  | cons f fields ih =>
    rcases recordItems_cons read with close | ⟨b, t, next, u, stands, found, others⟩
    · exact ⟨_, items_succ_iff.mpr (.inl ⟨close, rfl⟩)⟩
    · obtain ⟨x, item⟩ := valued f List.mem_cons_self fuel depth st (b :: t) next u found
      obtain ⟨v, rest⟩ := ih (fun g member => valued g (List.mem_cons_of_mem f member)) others
        (x :: acc)
      have more : fuel + 1 ≤ fuel + fields.length + 2 := by omega
      exact ⟨v, items_succ_iff.mpr (.inr ⟨b, t, x, u, stands,
        value_mono item more (Nat.le_refl depth), rest⟩)⟩

/-- A record is an object of the grammar, or it can be read as an array. -/
theorem record_cases (valued : Valued fields)
    (read : record fields fuel depth st s = .ok (last, r)) :
    (∃ t, skipBlank s = 0x7B :: t ∧ ValueText (0x7B :: t) r) ∨
      ∃ vs, value (fuelFor s) depth s = .ok (.arr vs, r) := by
  unfold record at read
  split at read
  · simp [fail] at read
  rename_i b t start
  split at read
  · subst_vars
    split at read
    · simp [failOn] at read
    · exact .inl ⟨t, start, valueText_of_recordMembers valued read⟩
  split at read
  · subst_vars
    split at read
    · simp [failOn] at read
    · obtain ⟨v, inside⟩ := items_of_recordItems valued read []
      obtain ⟨vs, rfl⟩ := items_arr inside
      have whole := value_succ_iff.mpr ⟨0x5B, t, start, .arr rfl rfl inside⟩
      exact .inr ⟨vs, value_fuelFor whole⟩
  · simp [failOn] at read

end ScriptGate.Json
