import ScriptGate.Proofs.Json.Extent
import ScriptGate.Proofs.Json.Members

/-!
# Arrays taken apart into texts

A text is read as an array exactly where it is texts of values, joined by commas inside brackets
and with blanks around: those texts are read as the elements of the array.
-/

namespace ScriptGate.Json

variable {fuel depth : Nat} {s t r w : Bytes} {v : Json}

/-! ### Blanks around a text -/

theorem stops_of_blank (blank : skipBlank s = []) : Stops s := by
  rintro b t rfl
  rw [skipBlank] at blank
  split at blank
  · rename_i isBlank
    simp only [isBlankByte, Bool.or_eq_true, beq_iff_eq] at isBlank
    rcases isBlank with ((rfl | rfl) | rfl) | rfl <;> decide
  · simp at blank

theorem parse_eq_ok_iff : parse s = .ok v ↔ IsText maxDepth s v := by
  unfold parse IsText
  rcases found : value (fuelFor s) maxDepth s with e | ⟨x, r⟩
  · simp
  · rw [finish_eq_ok_iff]
    constructor
    · rintro ⟨blank, rfl⟩
      exact ⟨r, rfl, blank⟩
    · rintro ⟨left, same, blank⟩
      obtain ⟨rfl, rfl⟩ := Prod.mk.inj (Except.ok.inj same)
      exact ⟨blank, rfl⟩

theorem IsText.pad (text : IsText depth t v) {before behind : Bytes}
    (blank : skipBlank before = []) (blank' : skipBlank behind = []) :
    IsText depth (before ++ t ++ behind) v := by
  obtain ⟨r, read, empty⟩ := text
  have longer := value_append read (Nat.le_refl _) (Nat.le_refl _) (stops_of_blank blank')
  have whole : value (fuelFor t) depth (before ++ t ++ behind) = .ok (v, r ++ behind) := by
    rw [← value_skipBlank, List.append_assoc, skipBlank_blanks_append blank, value_skipBlank]
    exact longer
  exact ⟨r ++ behind, value_fuelFor whole, by rw [skipBlank_blanks_append empty, blank']⟩

/-! ### Elements -/

/-- A text that is an array with these texts as its elements. -/
def IsArrayText (texts : List Bytes) (s : Bytes) : Prop :=
  ∃ before inner behind, skipBlank before = [] ∧ skipBlank inner = [] ∧ skipBlank behind = [] ∧
    s = before ++ 0x5B :: (inner ++ List.intercalate [0x2C] texts) ++ 0x5D :: behind

theorem isText_of_value {x : Json} (read : value fuel depth s = .ok (x, w ++ r))
    (blank : skipBlank w = []) : ∃ t, s = t ++ r ∧ IsText depth t x := by
  obtain ⟨t, rfl, same⟩ := value_extent read
  -- The blanks behind the value go to its text, so that the texts and the commas are all there is.
  have alone : value (2 * t.length) depth (t ++ w) = .ok (x, w) :=
    same _ w (Nat.le_refl _) (List.prefix_append w r)
  exact ⟨t ++ w, by rw [List.append_assoc], w, value_fuelFor alone, blank⟩

theorem items_texts {acc : List Json} (read : items fuel depth false acc s = .ok (v, r)) :
    ∃ w texts vs, skipBlank w = [] ∧ s = w ++ (textsTail texts ++ r) ∧
      List.Forall₂ (IsText depth) texts vs ∧ v = .arr (acc.reverse ++ vs) := by
  induction fuel generalizing acc s with
  | zero => simp [items, fail] at read
  | succ fuel ih =>
    rcases items_succ_iff.mp read with ⟨close, rfl⟩ | ⟨b, t, x, u, next, item, others⟩
    · obtain ⟨w, rfl, blank, -⟩ := skipBlank_eq_cons_iff.mp close
      exact ⟨w, [], [], blank, by simp [textsTail], .nil, by simp⟩
    · obtain ⟨w', texts, vs, blank', rfl, elements, rfl⟩ := ih others
      cases next with
      | @later _ _ behind _ comma start other =>
        obtain ⟨w, rfl, blank, -⟩ := skipBlank_eq_cons_iff.mp comma
        rw [← start, value_skipBlank] at item
        obtain ⟨t, rfl, text⟩ := isText_of_value item blank'
        refine ⟨w, t :: texts, x :: vs, blank, ?_, .cons text elements, by simp⟩
        rw [textsTail_cons, List.cons_append, List.append_assoc]

theorem first_items_texts (read : items fuel depth true [] s = .ok (v, r)) :
    ∃ inner texts vs, skipBlank inner = [] ∧
      s = inner ++ List.intercalate [0x2C] texts ++ 0x5D :: r ∧
      List.Forall₂ (IsText depth) texts vs ∧ v = .arr vs := by
  cases fuel with
  | zero => simp [items, fail] at read
  | succ fuel =>
    rcases items_succ_iff.mp read with ⟨close, rfl⟩ | ⟨b, t, x, u, next, item, others⟩
    · obtain ⟨w, rfl, blank, -⟩ := skipBlank_eq_cons_iff.mp close
      exact ⟨w, [], [], blank, by simp, .nil, rfl⟩
    · obtain ⟨w, texts, vs, blank, rfl, elements, rfl⟩ := items_texts others
      cases next with
      | first start other =>
        rw [← start, value_skipBlank] at item
        obtain ⟨t, rfl, text⟩ := isText_of_value item blank
        exact ⟨[], t :: texts, x :: vs, rfl, by simp [intercalate_comma, textsTail],
          .cons text elements, rfl⟩

theorem isArrayText_of_parse {vs : List Json} (read : parse s = .ok (.arr vs)) :
    ∃ texts, IsArrayText texts s ∧ List.Forall₂ (IsText 126) texts vs := by
  obtain ⟨r, found, blank⟩ := parse_eq_ok_iff.mp read
  obtain ⟨b, t, start, step⟩ := value_succ_iff.mp found
  cases step with
  | arr first deep inside =>
    subst first
    obtain rfl := Nat.succ.inj deep
    obtain ⟨before, rfl, empty, -⟩ := skipBlank_eq_cons_iff.mp start
    obtain ⟨inner, texts, vs', blank', rfl, elements, same⟩ := first_items_texts inside
    obtain rfl := Json.arr.inj same
    exact ⟨texts, ⟨before, inner, r, empty, blank', blank, by simp⟩, elements⟩
  | obj _ _ inside =>
    obtain ⟨ms, no⟩ := members_obj.1 _ _ _ inside
    cases no

theorem parse_of_isArrayText {texts : List Bytes} {vs : List Json} (array : IsArrayText texts s)
    (elements : List.Forall₂ (IsText 126) texts vs) : parse s = .ok (.arr vs) := by
  obtain ⟨before, inner, behind, empty, blank, empty', rfl⟩ := array
  have core : parse (0x5B :: (inner ++ List.intercalate [0x2C] texts) ++ [0x5D]) = .ok (.arr vs) := by
    cases elements with
    | nil =>
      have close : skipBlank (inner ++ [0x5D]) = [0x5D] := skipBlank_blanks_append blank [0x5D]
      have found : value 2 maxDepth (0x5B :: (inner ++ [0x5D])) = .ok (.arr [], []) :=
        value_succ_iff.mpr ⟨0x5B, inner ++ [0x5D], rfl,
          .arr rfl rfl (items_succ_iff.mpr (.inl ⟨close, rfl⟩))⟩
      have text : IsText maxDepth (0x5B :: (inner ++ [0x5D])) (.arr []) :=
        ⟨[], value_fuelFor found, rfl⟩
      rw [parse_eq_ok_iff]
      simpa only [List.intercalate_nil, List.append_nil, List.cons_append] using text
    | @cons t v texts vs text others =>
      have padded : IsText 126 (inner ++ t) v := by simpa using text.pad blank (rfl : skipBlank [] = [])
      have joined := parse_arrayText (List.cons_ne_nil _ _) (.cons padded others)
      simpa [arrayText, intercalate_comma] using joined
  rw [parse_eq_ok_iff] at core ⊢
  simpa using core.pad empty empty'

/-- Exactly the texts of arrays are read as arrays, element by element. -/
theorem parse_arr_iff {vs : List Json} : parse s = .ok (.arr vs) ↔
    ∃ texts, IsArrayText texts s ∧ List.Forall₂ (IsText 126) texts vs :=
  ⟨isArrayText_of_parse, fun ⟨_, array, elements⟩ => parse_of_isArrayText array elements⟩

end ScriptGate.Json
