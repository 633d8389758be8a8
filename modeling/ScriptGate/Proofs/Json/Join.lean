import ScriptGate.Proofs.Json.Context
import ScriptGate.Proofs.Json.Reading

/-!
# Arrays put together from texts

Texts of values, joined by commas inside brackets, are the text of the array of the values.
-/

namespace ScriptGate.Json

variable {fuel depth : Nat} {s r : Bytes} {v : Json}

/-- The text of an array with the given texts as its items. -/
def arrayText (texts : List Bytes) : Bytes := 0x5B :: List.intercalate [0x2C] texts ++ [0x5D]

/-- A text that is one value with blanks around it, in which at most `depth` containers nest. -/
def IsText (depth : Nat) (t : Bytes) (v : Json) : Prop :=
  ∃ r, value (fuelFor t) depth t = .ok (v, r) ∧ skipBlank r = []

theorem value_skipBlank (fuel depth : Nat) (s : Bytes) :
    value fuel depth (skipBlank s) = value fuel depth s := by
  cases fuel with
  | zero => simp only [value]
  | succ fuel => simp only [value, skipBlank_skipBlank]

theorem skipBlank_blanks_append {blanks : Bytes} (blank : skipBlank blanks = []) (s : Bytes) :
    skipBlank (blanks ++ s) = skipBlank s := by
  induction blanks with
  | nil => rfl
  | cons b blanks ih =>
    rw [skipBlank] at blank
    split at blank
    · rename_i isBlank
      rw [List.cons_append, skipBlank, if_pos isBlank]
      exact ih blank
    · simp at blank

theorem begins_ne_close {b : UInt8} (begins : Begins b v) : b ≠ 0x5D := by
  rintro rfl
  cases v <;> simp [Begins, isDigit] at begins

/-- The texts behind the first one, each behind its comma, and the closing bracket. -/
def textsTail (texts : List Bytes) : Bytes := texts.flatMap (0x2C :: ·) ++ [0x5D]

theorem textsTail_cons (t : Bytes) (texts : List Bytes) :
    textsTail (t :: texts) = 0x2C :: (t ++ textsTail texts) := by
  simp [textsTail]

theorem stops_textsTail (texts : List Bytes) : Stops (textsTail texts) := by
  cases texts with
  | nil => exact stops_cons _ (by decide)
  | cons t texts => rw [textsTail_cons]; exact stops_cons _ (by decide)

theorem intercalate_comma (t : Bytes) (texts : List Bytes) :
    List.intercalate [0x2C] (t :: texts) = t ++ texts.flatMap (0x2C :: ·) := by
  induction texts generalizing t with
  | nil => simp
  | cons u texts ih => rw [List.intercalate_cons_cons, ih]; simp

theorem arrayText_cons (t : Bytes) (texts : List Bytes) :
    arrayText (t :: texts) = 0x5B :: (t ++ textsTail texts) := by
  simp [arrayText, intercalate_comma, textsTail]

/-- The value of a text begins in front of the texts behind it, and leaves only blanks there. -/
theorem IsText.read (text : IsText depth s v) (fuel : Nat) (enough : fuelFor s ≤ fuel)
    (texts : List Bytes) :
    ∃ b t blanks, skipBlank (s ++ textsTail texts) = b :: t ∧ b ≠ 0x5D ∧ skipBlank blanks = [] ∧
      value fuel depth (b :: t) = .ok (v, blanks ++ textsTail texts) := by
  obtain ⟨blanks, found, blank⟩ := text
  obtain ⟨b, t, start, begins⟩ := begins_of_value found
  have first := skipBlank_append start (textsTail texts)
  refine ⟨b, t ++ textsTail texts, blanks, first, begins_ne_close begins, blank, ?_⟩
  rw [← first, value_skipBlank]
  exact value_append found enough (Nat.le_refl _) (stops_textsTail texts)

theorem items_textsTail {texts : List Bytes} {vs : List Json}
    (read : List.Forall₂ (IsText depth) texts vs) (acc : List Json) {blanks : Bytes}
    (blank : skipBlank blanks = []) (enough : 2 * (textsTail texts).length ≤ fuel) :
    items fuel depth false acc (blanks ++ textsTail texts) = .ok (.arr (acc.reverse ++ vs), []) := by
  induction read generalizing acc fuel blanks with
  | nil =>
    obtain ⟨fuel, rfl⟩ : ∃ n, fuel = n + 1 := ⟨fuel - 1, by simp [textsTail] at enough; omega⟩
    refine items_succ_iff.mpr (.inl ⟨?_, by simp⟩)
    rw [skipBlank_blanks_append blank]
    rfl
  | @cons t v texts vs text _ ih =>
    simp only [textsTail_cons, List.length_cons, List.length_append] at enough ⊢
    have closed : 0 < (textsTail texts).length := by simp [textsTail]
    obtain ⟨fuel, rfl⟩ : ∃ n, fuel = n + 1 := ⟨fuel - 1, by omega⟩
    obtain ⟨b, u, left, start, other, empty, found⟩ :=
      text.read fuel (by simp only [fuelFor]; omega) texts
    have comma : skipBlank (blanks ++ 0x2C :: (t ++ textsTail texts)) =
        0x2C :: (t ++ textsTail texts) := skipBlank_blanks_append blank _
    refine items_succ_iff.mpr (.inr ⟨b, u, v, _, .later comma start other, found, ?_⟩)
    rw [ih (v :: acc) empty (by omega)]
    simp

/-- Texts of values, put together, are read as the array of the values. -/
theorem parse_arrayText {texts : List Bytes} {vs : List Json} (some_text : texts ≠ [])
    (read : List.Forall₂ (IsText 126) texts vs) : parse (arrayText texts) = .ok (.arr vs) := by
  cases read with
  | nil => exact absurd rfl some_text
  | @cons t v texts vs text others =>
    have closed : 0 < (textsTail texts).length := by simp [textsTail]
    have long := congrArg List.length (arrayText_cons t texts)
    simp only [List.length_cons, List.length_append] at long
    obtain ⟨b, u, left, start, other, empty, found⟩ :=
      text.read (2 * (arrayText (t :: texts)).length) (by simp only [fuelFor]; omega) texts
    have inside : items (2 * (arrayText (t :: texts)).length + 1) 126 true [] (t ++ textsTail texts) =
        .ok (.arr (v :: vs), []) := by
      refine items_succ_iff.mpr (.inr ⟨b, u, v, _, .first start other, found, ?_⟩)
      exact items_textsTail others [v] empty (by omega)
    have whole : value (fuelFor (arrayText (t :: texts))) maxDepth (arrayText (t :: texts)) =
        .ok (.arr (v :: vs), []) :=
      value_succ_iff.mpr ⟨0x5B, t ++ textsTail texts, by rw [arrayText_cons]; rfl,
        .arr rfl rfl inside⟩
    rw [parse, whole]
    rfl

end ScriptGate.Json
