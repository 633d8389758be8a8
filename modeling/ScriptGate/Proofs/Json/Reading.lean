import ScriptGate.Proofs.Json.Steps
import ScriptGate.Proofs.Json.Tokens

/-!
# Where a value stands in a text

The first byte of a value tells its kind.
-/

namespace ScriptGate.Json

variable {fuel depth : Nat} {s r : Bytes} {v : Json}

/-! ### How values begin -/

theorem skipBlank_solid {b : UInt8} {t : Bytes} (start : skipBlank s = b :: t) :
    isBlankByte b = false := by
  induction s with
  | nil => simp [skipBlank] at start
  | cons c rest ih =>
    rw [skipBlank] at start
    split at start
    · exact ih start
    · rename_i solid
      obtain ⟨rfl, -⟩ := List.cons.inj start
      simpa using solid

@[simp] theorem skipBlank_skipBlank (s : Bytes) : skipBlank (skipBlank s) = skipBlank s := by
  cases start : skipBlank s with
  | nil => rfl
  | cons b t => simp [skipBlank, skipBlank_solid start]

/-- The byte that a value can begin with. -/
def Begins (b : UInt8) : Json → Prop
  | .null => b = 0x6E
  | .bool _ => b = 0x74 ∨ b = 0x66
  | .num _ => b = 0x2D ∨ isDigit b = true
  | .str _ => b = 0x22
  | .arr _ => b = 0x5B
  | .obj _ => b = 0x7B

theorem items_arr {first : Bool} {acc : List Json}
    (read : items fuel depth first acc s = .ok (v, r)) : ∃ xs, v = .arr xs := by
  induction fuel generalizing first acc s with
  | zero => simp [items, fail] at read
  | succ fuel ih =>
    rcases items_succ_iff.mp read with ⟨-, rfl⟩ | ⟨_, _, _, _, _, _, others⟩
    · exact ⟨_, rfl⟩
    · exact ih others

theorem members_obj :
    (∀ first acc s, members fuel depth first acc s = .ok (v, r) → ∃ ms, v = .obj ms) ∧
    ∀ acc s, member fuel depth acc s = .ok (v, r) → ∃ ms, v = .obj ms := by
  induction fuel with
  | zero => simp [members, member, fail]
  | succ fuel ih =>
    obtain ⟨more, one⟩ := ih
    refine ⟨fun first acc s read => ?_, fun acc s read => ?_⟩
    · rcases members_succ_iff.mp read with ⟨-, rfl⟩ | ⟨_, _, _, inside⟩
      · exact ⟨_, rfl⟩
      · exact one _ _ inside
    · obtain ⟨_, _, _, _, _, _, _, _, others⟩ := member_succ_iff.mp read
      exact more _ _ _ others

/-- A value begins behind the blanks, with a byte of its kind. -/
theorem begins_of_value (read : value fuel depth s = .ok (v, r)) :
    ∃ b t, skipBlank s = b :: t ∧ Begins b v := by
  cases fuel with
  | zero => simp [value, fail] at read
  | succ fuel =>
    obtain ⟨b, t, start, step⟩ := value_succ_iff.mp read
    refine ⟨b, t, start, ?_⟩
    cases step with
    | null first | str first | num first => exact first
    | true first => exact .inl first
    | false first => exact .inr first
    | arr first _ inside => obtain ⟨xs, rfl⟩ := items_arr inside; exact first
    | obj first _ inside => obtain ⟨ms, rfl⟩ := members_obj.1 _ _ _ inside; exact first

/-- A text that begins like no array is no array. -/
theorem parse_ne_arr {b : UInt8} {t : Bytes} (start : skipBlank s = b :: t) (other : b ≠ 0x5B)
    (xs : List Json) : parse s ≠ .ok (.arr xs) := by
  intro read
  unfold parse at read
  split at read
  · rename_i found
    obtain ⟨c, u, starts, begins⟩ := begins_of_value found
    obtain ⟨rfl, -⟩ := List.cons.inj (start.symm.trans starts)
    unfold finish at read
    split at read
    · obtain rfl := Except.ok.inj read
      exact other begins
    · simp [failOn] at read
  · simp at read

end ScriptGate.Json
