import ScriptGate.Http.Message
import ScriptGate.Proofs.Json.Tokens
import ScriptGate.Text.Blank
import ScriptGate.Text.Utf8
import ScriptGate.Uuid

/-!
# Visible texts

The texts that `Utf8.visible?` reads are those of printable ASCII and tabs. They can stand in a
header line, and an identifier of sixteen random bytes is one of them.
-/

namespace ScriptGate

/-- A character that a header value may show: printable ASCII or the tab. -/
def IsVisible (c : Char) : Prop := c.toNat = 0x09 ∨ (0x20 ≤ c.toNat ∧ c.toNat < 0x7F)

instance (c : Char) : Decidable (IsVisible c) := inferInstanceAs (Decidable (_ ∨ _))

namespace Utf8

theorem isVisible_ofNat : ∀ n : Fin 128,
    IsVisible (Char.ofNat n.val) ↔ isVisibleByte (UInt8.ofNat n.val) = true := by decide

theorem visible_byte {c : Char} (visible : IsVisible c) :
    String.utf8EncodeChar c = [UInt8.ofNat c.toNat] ∧
      isVisibleByte (UInt8.ofNat c.toNat) = true ∧
      Char.ofNat (UInt8.ofNat c.toNat).toNat = c := by
  have ascii : c.toNat < 128 := by
    rcases visible with tab | printable <;> omega
  have code := Json.utf8EncodeChar_ascii ⟨c.toNat, ascii⟩
  have byte := isVisible_ofNat ⟨c.toNat, ascii⟩
  rw [Char.ofNat_toNat] at code byte
  refine ⟨code, byte.mp visible, ?_⟩
  rw [UInt8.toNat_ofNat', Nat.mod_eq_of_lt (by omega), Char.ofNat_toNat]

theorem visible_char {b : UInt8} (visible : isVisibleByte b = true) :
    IsVisible (Char.ofNat b.toNat) ∧ UInt8.ofNat (Char.ofNat b.toNat).toNat = b := by
  have ascii : b.toNat < 128 := by
    simp only [isVisibleByte, Bool.or_eq_true, Bool.and_eq_true, decide_eq_true_eq, beq_iff_eq,
      UInt8.le_iff_toNat_le, UInt8.lt_iff_toNat_lt] at visible
    rcases visible with ⟨-, below⟩ | rfl
    · exact Nat.lt_trans below (by decide)
    · decide
  have code : ∀ n : Fin 128, (Char.ofNat n.val).toNat = n.val := by decide
  have byte := isVisible_ofNat ⟨b.toNat, ascii⟩
  rw [UInt8.ofNat_toNat] at byte
  exact ⟨byte.mpr visible, by rw [code ⟨b.toNat, ascii⟩, UInt8.ofNat_toNat]⟩

theorem ofString_of_visible {s : String} (visible : ∀ c ∈ s.toList, IsVisible c) :
    Bytes.ofString s = s.toList.map fun c => UInt8.ofNat c.toNat := by
  have bytes : Bytes.ofString s = s.toList.flatMap String.utf8EncodeChar := by
    rw [← Json.ofString_ofList, String.ofList_toList]
  rw [bytes, List.map_eq_flatMap]
  exact List.flatMap_congr fun c member => (visible_byte (visible c member)).1

theorem all_isVisibleByte {s : String} (visible : ∀ c ∈ s.toList, IsVisible c) :
    ∀ b ∈ Bytes.ofString s, isVisibleByte b = true := by
  rw [ofString_of_visible visible]
  intro b member
  obtain ⟨c, inside, rfl⟩ := List.mem_map.mp member
  exact (visible_byte (visible c inside)).2.1

/-- What is read as a visible text are the bytes of one. -/
theorem visible?_eq_some_iff {b : Bytes} {s : String} :
    visible? b = some s ↔ b = Bytes.ofString s ∧ ∀ c ∈ s.toList, IsVisible c := by
  constructor
  · intro found
    unfold visible? at found
    split at found
    · rename_i all
      obtain rfl := Option.some.inj found
      rw [List.all_eq_true] at all
      have visible : ∀ c ∈ (String.ofList (b.map fun x => Char.ofNat x.toNat)).toList,
          IsVisible c := by
        intro c member
        rw [String.toList_ofList] at member
        obtain ⟨x, inside, rfl⟩ := List.mem_map.mp member
        exact (visible_char (all x inside)).1
      refine ⟨?_, visible⟩
      rw [ofString_of_visible visible, String.toList_ofList, List.map_map, eq_comm]
      exact (List.map_congr_left fun x inside => (visible_char (all x inside)).2).trans
        (List.map_id b)
    · cases found
  · rintro ⟨rfl, visible⟩
    rw [visible?, if_pos (List.all_eq_true.mpr (all_isVisibleByte visible)),
      ofString_of_visible visible, List.map_map]
    have same : s.toList.map ((fun x : UInt8 => Char.ofNat x.toNat) ∘
        fun c => UInt8.ofNat c.toNat) = s.toList :=
      (List.map_congr_left fun c member => (visible_byte (visible c member)).2.2).trans
        (List.map_id _)
    rw [same, String.ofList_toList]

theorem exists_ofString {b : Bytes} (visible : ∀ x ∈ b, isVisibleByte x = true) :
    ∃ s, Bytes.ofString s = b :=
  ⟨_, (visible?_eq_some_iff.mp (if_pos (List.all_eq_true.mpr visible))).1.symm⟩

end Utf8

theorem Http.isHeaderValue_of_visible {s : String} (visible : ∀ c ∈ s.toList, IsVisible c) :
    isHeaderValue s = true := by
  rw [isHeaderValue, List.all_eq_true]
  intro b member
  have shown := Utf8.all_isVisibleByte visible b member
  simp only [Utf8.isVisibleByte, Bool.or_eq_true, Bool.and_eq_true, decide_eq_true_eq,
    beq_iff_eq] at shown
  rcases shown with ⟨low, high⟩ | tab
  · have noDelete : b ≠ 0x7F := by
      rintro rfl
      exact absurd high (by decide)
    simp [low, noDelete]
  · simp [tab]

theorem Text.mem_of_mem_trim {s : String} {c : Char} (member : c ∈ (trim s).toList) :
    c ∈ s.toList := by
  rw [trim, trimWhile, String.toList_ofList, List.mem_reverse] at member
  have inside := (List.dropWhile_sublist _).subset member
  exact (List.dropWhile_sublist _).subset (List.mem_reverse.mp inside)

theorem Bytes.isVisible_toHex (b : Bytes) : ∀ c ∈ b.toHex.toList, IsVisible c := by
  have digit : ∀ n : Fin 16, IsVisible (Bytes.hexDigit n.val) := by decide
  intro c member
  rw [Bytes.toHex, String.toList_ofList] at member
  obtain ⟨x, -, one⟩ := List.mem_flatMap.mp member
  have bound := x.toNat_lt
  rcases List.mem_pair.mp one with rfl | rfl
  · exact digit ⟨x.toNat / 16, by omega⟩
  · exact digit ⟨x.toNat % 16, by omega⟩

theorem Text.forall_mem_intercalate {P : Char → Prop} {sep : String} {parts : List String}
    (inSep : ∀ c ∈ sep.toList, P c) (inParts : ∀ part ∈ parts, ∀ c ∈ part.toList, P c) :
    ∀ c ∈ (sep.intercalate parts).toList, P c := by
  rw [String.toList_intercalate]
  induction parts with
  | nil => simp
  | cons part rest ih =>
    obtain ⟨here, there⟩ := List.forall_mem_cons.mp inParts
    cases rest with
    | nil => simpa using here
    | cons next rest =>
      rw [List.map_cons, List.map_cons, List.intercalate_cons_cons]
      intro c member
      rcases List.mem_append.mp member with early | late
      · exact (List.mem_append.mp early).elim (here c) (inSep c)
      · exact ih there c late

theorem Uuid.isVisible_text (random : Bytes) : ∀ c ∈ (text random).toList, IsVisible c := by
  have inGroups (sizes : List Nat) (b : Bytes) :
      ∀ g ∈ groups sizes b, ∀ c ∈ g.toList, IsVisible c := by
    induction sizes generalizing b with
    | nil => simp [groups]
    | cons n sizes ih =>
      rw [groups, List.forall_mem_cons]
      exact ⟨Bytes.isVisible_toHex _, ih _⟩
  have dash : IsVisible '-' := by decide
  exact Text.forall_mem_intercalate (by simpa using dash) (inGroups _ _)

end ScriptGate
