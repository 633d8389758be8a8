import ScriptGate.Proofs.Json.Parser

/-!
# One step of a reader

What a reader gave tells how it went on: the byte behind the blanks, the token or the reader that
came next, and what was left for it.
-/

namespace ScriptGate.Json

/-- How a value with `b` as its first byte and `t` behind it was read. -/
inductive ValueStep (fuel depth : Nat) (b : UInt8) (t : Bytes) : Json → Bytes → Prop
  | null {r : Bytes} : b = 0x6E → expect [0x75, 0x6C, 0x6C] t = .ok r →
      ValueStep fuel depth b t .null r
  | true {r : Bytes} : b = 0x74 → expect [0x72, 0x75, 0x65] t = .ok r →
      ValueStep fuel depth b t (.bool true) r
  | false {r : Bytes} : b = 0x66 → expect [0x61, 0x6C, 0x73, 0x65] t = .ok r →
      ValueStep fuel depth b t (.bool false) r
  | str {x : String} {r : Bytes} : b = 0x22 → string t = .ok (x, r) →
      ValueStep fuel depth b t (.str x) r
  | arr {inner : Nat} {v : Json} {r : Bytes} : b = 0x5B → depth = inner + 1 →
      items fuel inner true [] t = .ok (v, r) → ValueStep fuel depth b t v r
  | obj {inner : Nat} {v : Json} {r : Bytes} : b = 0x7B → depth = inner + 1 →
      members fuel inner true [] t = .ok (v, r) → ValueStep fuel depth b t v r
  | num {n : Number} {r : Bytes} : b = 0x2D ∨ isDigit b = true → number (b :: t) = .ok (n, r) →
      ValueStep fuel depth b t (.num n) r

/-- Where the next item or member stands: behind the bracket that opens, or behind a comma. -/
inductive Next (close : UInt8) : Bool → Bytes → UInt8 → Bytes → Prop
  | first {s t : Bytes} {b : UInt8} : skipBlank s = b :: t → b ≠ close → Next close true s b t
  | later {s t w : Bytes} {b : UInt8} : skipBlank s = 0x2C :: w → skipBlank w = b :: t →
      b ≠ close → Next close false s b t

variable {fuel depth : Nat} {s r : Bytes} {v : Json}

theorem expect_map_iff {ws t : Bytes} {w : Json} :
    (expect ws t).map (w, ·) = .ok (v, r) ↔ v = w ∧ expect ws t = .ok r := by
  cases expect ws t <;> simp [Except.map, eq_comm]

theorem value_succ_iff : value (fuel + 1) depth s = .ok (v, r) ↔
    ∃ b t, skipBlank s = b :: t ∧ ValueStep fuel depth b t v r := by
  constructor
  · intro read
    rw [value] at read
    split at read
    · simp [fail] at read
    rename_i b t start
    refine ⟨b, t, start, ?_⟩
    split at read
    · obtain ⟨rfl, word⟩ := expect_map_iff.mp read
      exact .null ‹_› word
    split at read
    · obtain ⟨rfl, word⟩ := expect_map_iff.mp read
      exact .true ‹_› word
    split at read
    · obtain ⟨rfl, word⟩ := expect_map_iff.mp read
      exact .false ‹_› word
    split at read
    · split at read
      · obtain ⟨rfl, rfl⟩ := Prod.mk.inj (Except.ok.inj read)
        exact .str ‹_› ‹_›
      · simp at read
    split at read
    · split at read
      · simp [failOn] at read
      · exact .arr ‹_› rfl read
    split at read
    · split at read
      · simp [failOn] at read
      · exact .obj ‹_› rfl read
    split at read
    · split at read
      · obtain ⟨rfl, rfl⟩ := Prod.mk.inj (Except.ok.inj read)
        exact .num ‹_› ‹_›
      · simp at read
    · simp [failOn] at read
  · rintro ⟨b, t, start, step⟩
    simp only [value, start]
    cases step with
    | null first word => subst first; simp [word, Except.map]
    | true first word => subst first; simp [word, Except.map]
    | false first word => subst first; simp [word, Except.map]
    | str first token => subst first; simp [token]
    | arr first deep inside => subst first deep; simpa using inside
    | obj first deep inside => subst first deep; simpa using inside
    | num first token =>
      have other {c : UInt8} (plain : ¬ (c = 0x2D ∨ isDigit c = true)) : b ≠ c :=
        fun same => plain (same ▸ first)
      rw [if_neg (other (by decide)), if_neg (other (by decide)), if_neg (other (by decide)),
        if_neg (other (by decide)), if_neg (other (by decide)), if_neg (other (by decide)),
        if_pos first, token]

theorem items_succ_iff {first : Bool} {acc : List Json} :
    items (fuel + 1) depth first acc s = .ok (v, r) ↔
      (skipBlank s = 0x5D :: r ∧ v = .arr acc.reverse) ∨
      ∃ b t x u, Next 0x5D first s b t ∧ value fuel depth (b :: t) = .ok (x, u) ∧
        items fuel depth false (x :: acc) u = .ok (v, r) := by
  constructor
  · intro read
    rw [items] at read
    split at read
    · simp [fail] at read
    rename_i b t start
    split at read
    · subst_vars
      obtain ⟨rfl, rfl⟩ := Prod.mk.inj (Except.ok.inj read)
      exact .inl ⟨start, rfl⟩
    split at read
    · split at read
      · subst_vars
        exact .inr ⟨b, t, _, _, .first start ‹_›, ‹_›, read⟩
      · simp at read
    rename_i notFirst
    split at read
    · subst_vars
      split at read
      · simp [fail] at read
      split at read
      · simp [failOn] at read
      split at read
      · obtain rfl : first = false := by simpa using notFirst
        exact .inr ⟨_, _, _, _, .later start ‹_› ‹_›, ‹_›, read⟩
      · simp at read
    · simp [failOn] at read
  · rintro (⟨start, rfl⟩ | ⟨b, t, x, u, next, item, more⟩)
    · simp [items, start]
    · cases next with
      | first start other => simp [items, start, other, item, more]
      | later comma start other => simp [items, comma, start, other, item, more]

theorem members_next {b : UInt8} {t : Bytes} {first : Bool} {acc : List (String × Json)}
    (next : Next 0x7D first s b t) :
    members (fuel + 1) depth first acc s = member fuel depth acc (b :: t) := by
  cases next with
  | first start other => simp [members, start, other]
  | later comma start other => simp [members, comma, start, other]

theorem members_succ_iff {first : Bool} {acc : List (String × Json)} :
    members (fuel + 1) depth first acc s = .ok (v, r) ↔
      (skipBlank s = 0x7D :: r ∧ v = .obj acc) ∨
      ∃ b t, Next 0x7D first s b t ∧ member fuel depth acc (b :: t) = .ok (v, r) := by
  constructor
  · intro read
    rw [members] at read
    split at read
    · simp [fail] at read
    rename_i b t start
    split at read
    · subst_vars
      obtain ⟨rfl, rfl⟩ := Prod.mk.inj (Except.ok.inj read)
      exact .inl ⟨start, rfl⟩
    split at read
    · subst_vars
      exact .inr ⟨b, t, .first start ‹_›, read⟩
    rename_i notFirst
    split at read
    · subst_vars
      split at read
      · simp [fail] at read
      split at read
      · simp [failOn] at read
      · obtain rfl : first = false := by simpa using notFirst
        exact .inr ⟨_, _, .later start ‹_› ‹_›, read⟩
    · simp [failOn] at read
  · rintro (⟨start, rfl⟩ | ⟨b, t, next, one⟩)
    · simp [members, start]
    · rw [members_next next, one]

theorem member_succ_iff {acc : List (String × Json)} :
    member (fuel + 1) depth acc s = .ok (v, r) ↔
      ∃ key t u x w, s = 0x22 :: t ∧ string t = .ok (key, u) ∧ (∃ c, skipBlank u = 0x3A :: c ∧
        value fuel depth c = .ok (x, w)) ∧
        members fuel depth false (insert key x acc) w = .ok (v, r) := by
  constructor
  · intro read
    rw [member.eq_def] at read
    simp only at read
    split at read
    · split at read
      · simp at read
      split at read
      · simp [fail] at read
      split at read
      · split at read
        · subst_vars
          exact ⟨_, _, _, _, _, rfl, ‹_›, ⟨_, ‹_›, ‹_›⟩, read⟩
        · simp at read
      · simp [failOn] at read
    · simp [failOn] at read
  · rintro ⟨key, t, u, x, w, rfl, token, ⟨c, colon, found⟩, more⟩
    simp [member, token, colon, found, more]

end ScriptGate.Json
