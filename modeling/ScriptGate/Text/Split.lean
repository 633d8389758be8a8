/-!
# Splitting at a separator

`splitAt` cuts a list at every occurrence of a separator; `List.intercalate` puts it back together
(`intercalate_splitAt`). An input without separators is one piece, and so is the empty one.
-/

namespace ScriptGate.Text

def splitAt {α : Type} [DecidableEq α] (sep : α) : List α → List (List α)
  | [] => [[]]
  | c :: r =>
    if c = sep then [] :: splitAt sep r
    else
      match splitAt sep r with
      | [] => [[c]]
      | piece :: rest => (c :: piece) :: rest

def split (sep : Char) (s : String) : List String := (splitAt sep s.toList).map String.ofList

def join (sep : String) (pieces : List String) : String := sep.intercalate pieces

theorem splitAt_ne_nil {α : Type} [DecidableEq α] (sep : α) (xs : List α) :
    splitAt sep xs ≠ [] := by
  induction xs with
  | nil => simp [splitAt]
  | cons c r ih =>
    simp only [splitAt]
    split
    · simp
    · split <;> simp

/-- Putting the separator back between the pieces gives the list again. -/
theorem intercalate_splitAt {α : Type} [DecidableEq α] (sep : α) (xs : List α) :
    List.intercalate [sep] (splitAt sep xs) = xs := by
  induction xs with
  | nil => rfl
  | cons c r ih =>
    have ne := splitAt_ne_nil sep r
    simp only [splitAt]
    split
    · next h =>
      subst h
      cases pieces : splitAt c r with
      | nil => exact absurd pieces ne
      | cons p q => rw [pieces] at ih; simp [List.intercalate] at ih ⊢; exact ih
    · split
      · next empty => exact absurd empty ne
      · next p q pieces =>
        rw [pieces] at ih
        cases q with
        | nil => simp [List.intercalate] at ih ⊢; exact ih
        | cons _ _ => simp [List.intercalate] at ih ⊢; exact ih

/-! ### Pieces -/

section Pieces

variable {α : Type} [DecidableEq α] {sep : α} {xs : List α}

theorem splitAt_of_not_mem (whole : sep ∉ xs) : splitAt sep xs = [xs] := by
  induction xs with
  | nil => rfl
  | cons c r ih =>
    rw [List.mem_cons, not_or] at whole
    rw [splitAt, if_neg (Ne.symm whole.1), ih whole.2]

/-- The first separator ends the first piece. -/
theorem splitAt_append_cons (whole : sep ∉ xs) (ys : List α) :
    splitAt sep (xs ++ sep :: ys) = xs :: splitAt sep ys := by
  induction xs with
  | nil => rw [List.nil_append, splitAt, if_pos rfl]
  | cons c r ih =>
    rw [List.mem_cons, not_or] at whole
    rw [List.cons_append, splitAt, if_neg (Ne.symm whole.1), ih whole.2]

theorem not_mem_of_mem_splitAt : ∀ piece ∈ splitAt sep xs, sep ∉ piece := by
  induction xs with
  | nil => simp [splitAt]
  | cons c r ih =>
    intro piece member
    simp only [splitAt] at member
    split at member
    · rcases List.mem_cons.mp member with rfl | later
      · exact List.not_mem_nil
      · exact ih piece later
    · rename_i other
      split at member
      · rw [List.mem_singleton.mp member, List.mem_singleton]
        exact Ne.symm other
      · rename_i first rest pieces
        rw [pieces] at ih
        rcases List.mem_cons.mp member with rfl | later
        · rw [List.mem_cons, not_or]
          exact ⟨Ne.symm other, ih first List.mem_cons_self⟩
        · exact ih piece (List.mem_cons_of_mem first later)

/-- Three pieces have two separators between them, and none inside. -/
theorem splitAt_eq_three_iff {a b c : List α} : splitAt sep xs = [a, b, c] ↔
    xs = a ++ sep :: (b ++ sep :: c) ∧ sep ∉ a ∧ sep ∉ b ∧ sep ∉ c := by
  constructor
  · intro pieces
    have whole : ∀ piece ∈ splitAt sep xs, sep ∉ piece := not_mem_of_mem_splitAt
    have joined := intercalate_splitAt sep xs
    rw [pieces] at whole joined
    refine ⟨?_, whole a (by simp), whole b (by simp), whole c (by simp)⟩
    rw [← joined]
    simp [List.intercalate]
  · rintro ⟨rfl, first, second, third⟩
    rw [splitAt_append_cons first, splitAt_append_cons second, splitAt_of_not_mem third]

end Pieces

end ScriptGate.Text
