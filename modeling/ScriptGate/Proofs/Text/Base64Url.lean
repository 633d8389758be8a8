import ScriptGate.Text.Base64Url

/-!
# Base64 read back

Reading undoes writing, and accepts nothing else: a text stands for bytes exactly if it is what is
written for them (`decode?_eq_some_iff`). The digits are letters, numbers and two signs, so a text
has no dot in it.
-/

namespace ScriptGate.Base64Url

variable {b : UInt8} {n : Nat} {s bytes : Bytes}

/-! ### Digits -/

theorem value?_digit : ∀ n < 64, value? (digit n) = some n := by decide

theorem digit_ne_dot : ∀ n < 64, digit n ≠ 0x2E := by decide

theorem digit_of_value? (read : value? b = some n) : n < 64 ∧ digit n = b := by
  have every : ∀ k : Fin 256, ∀ n ∈ value? (UInt8.ofNat k), n < 64 ∧ digit n = UInt8.ofNat k := by
    decide +kernel
  have byte := every ⟨b.toNat, b.toNat_lt⟩ n
  rw [UInt8.ofNat_toNat] at byte
  exact byte read

theorem ofNat_of_eq {m : Nat} (equal : m = b.toNat) : UInt8.ofNat m = b := by
  rw [equal, UInt8.ofNat_toNat]

/-! ### Texts -/

theorem decode?_encode (bytes : Bytes) : decode? (encode bytes) = some bytes := by
  fun_induction encode bytes with
  | case1 => rfl
  | case2 a =>
    have first := a.toNat_lt
    have one : UInt8.ofNat (a.toNat / 4 * 4 + a.toNat % 4 * 16 / 16) = a := ofNat_of_eq (by omega)
    have unused : a.toNat % 4 * 16 % 16 = 0 := by omega
    rw [decode?, value?_digit _ (by omega), value?_digit _ (by omega)]
    simp only [Option.bind_eq_bind, Option.bind_some, unused, if_pos, one]
  | case3 a b =>
    have first := a.toNat_lt
    have second := b.toNat_lt
    have one : UInt8.ofNat (a.toNat / 4 * 4 + (a.toNat % 4 * 16 + b.toNat / 16) / 16) = a :=
      ofNat_of_eq (by omega)
    have two : UInt8.ofNat ((a.toNat % 4 * 16 + b.toNat / 16) % 16 * 16 + b.toNat % 16 * 4 / 4) =
        b := ofNat_of_eq (by omega)
    have unused : b.toNat % 16 * 4 % 4 = 0 := by omega
    rw [decode?, value?_digit _ (by omega), value?_digit _ (by omega), value?_digit _ (by omega)]
    simp only [Option.bind_eq_bind, Option.bind_some, unused, if_pos, one, two]
  | case4 a b c r ih =>
    have first := a.toNat_lt
    have second := b.toNat_lt
    have third := c.toNat_lt
    have one : UInt8.ofNat (a.toNat / 4 * 4 + (a.toNat % 4 * 16 + b.toNat / 16) / 16) = a :=
      ofNat_of_eq (by omega)
    have two : UInt8.ofNat ((a.toNat % 4 * 16 + b.toNat / 16) % 16 * 16 +
        (b.toNat % 16 * 4 + c.toNat / 64) / 4) = b := ofNat_of_eq (by omega)
    have three : UInt8.ofNat ((b.toNat % 16 * 4 + c.toNat / 64) % 4 * 64 + c.toNat % 64) = c :=
      ofNat_of_eq (by omega)
    rw [decode?, value?_digit _ (by omega), value?_digit _ (by omega), value?_digit _ (by omega),
      value?_digit _ (by omega), ih]
    simp only [Option.bind_eq_bind, Option.bind_some, one, two, three]
    rfl

theorem toNat_ofNat_of_lt {m : Nat} (below : m < 256) : (UInt8.ofNat m).toNat = m := by
  rw [UInt8.toNat_ofNat']
  exact Nat.mod_eq_of_lt below

/-- Reading accepts nothing but what is written: no unused bit of a last digit may be set. -/
theorem encode_of_decode? (read : decode? s = some bytes) : encode bytes = s := by
  fun_induction decode? s generalizing bytes with
  | case1 =>
    cases read
    rfl
  | case2 => cases read
  | case3 w x =>
    simp only [Option.bind_eq_bind, Option.bind_eq_some_iff] at read
    obtain ⟨i, is_w, j, is_x, read⟩ := read
    obtain ⟨i_lt, rfl⟩ := digit_of_value? is_w
    obtain ⟨j_lt, rfl⟩ := digit_of_value? is_x
    split at read
    · cases read
      have first : (i * 4 + j / 16) / 4 = i := by omega
      have second : (i * 4 + j / 16) % 4 * 16 = j := by omega
      rw [encode, toNat_ofNat_of_lt (by omega), first, second]
    · cases read
  | case4 w x y =>
    simp only [Option.bind_eq_bind, Option.bind_eq_some_iff] at read
    obtain ⟨i, is_w, j, is_x, k, is_y, read⟩ := read
    obtain ⟨i_lt, rfl⟩ := digit_of_value? is_w
    obtain ⟨j_lt, rfl⟩ := digit_of_value? is_x
    obtain ⟨k_lt, rfl⟩ := digit_of_value? is_y
    split at read
    · cases read
      have first : (i * 4 + j / 16) / 4 = i := by omega
      have second : (i * 4 + j / 16) % 4 * 16 + (j % 16 * 16 + k / 4) / 16 = j := by omega
      have third : (j % 16 * 16 + k / 4) % 16 * 4 = k := by omega
      rw [encode, toNat_ofNat_of_lt (by omega), toNat_ofNat_of_lt (by omega), first, second, third]
    · cases read
  | case5 w x y z r ih =>
    simp only [Option.bind_eq_bind, Option.bind_eq_some_iff] at read
    obtain ⟨i, is_w, j, is_x, k, is_y, l, is_z, rest, is_rest, read⟩ := read
    obtain ⟨i_lt, rfl⟩ := digit_of_value? is_w
    obtain ⟨j_lt, rfl⟩ := digit_of_value? is_x
    obtain ⟨k_lt, rfl⟩ := digit_of_value? is_y
    obtain ⟨l_lt, rfl⟩ := digit_of_value? is_z
    cases read
    have first : (i * 4 + j / 16) / 4 = i := by omega
    have second : (i * 4 + j / 16) % 4 * 16 + (j % 16 * 16 + k / 4) / 16 = j := by omega
    have third : (j % 16 * 16 + k / 4) % 16 * 4 + (k % 4 * 64 + l) / 64 = k := by omega
    have fourth : (k % 4 * 64 + l) % 64 = l := by omega
    rw [encode, toNat_ofNat_of_lt (by omega), toNat_ofNat_of_lt (by omega),
      toNat_ofNat_of_lt (by omega), first, second, third, fourth, ih is_rest]

theorem decode?_eq_some_iff : decode? s = some bytes ↔ s = encode bytes := by
  constructor
  · intro read
    exact (encode_of_decode? read).symm
  · rintro rfl
    exact decode?_encode bytes

theorem mem_encode (bytes : Bytes) : ∀ b ∈ encode bytes, ∃ n < 64, digit n = b := by
  have is_digit {n : Nat} (below : n < 64) : ∃ m < 64, digit m = digit n := ⟨n, below, rfl⟩
  fun_induction encode bytes with
  | case1 => simp
  | case2 a =>
    have first := a.toNat_lt
    simp [is_digit (show a.toNat / 4 < 64 by omega), is_digit (show a.toNat % 4 * 16 < 64 by omega)]
  | case3 a b =>
    have first := a.toNat_lt
    have second := b.toNat_lt
    simp [is_digit (show a.toNat / 4 < 64 by omega),
      is_digit (show a.toNat % 4 * 16 + b.toNat / 16 < 64 by omega),
      is_digit (show b.toNat % 16 * 4 < 64 by omega)]
  | case4 a b c r ih =>
    have first := a.toNat_lt
    have second := b.toNat_lt
    have third := c.toNat_lt
    simpa [is_digit (show a.toNat / 4 < 64 by omega),
      is_digit (show a.toNat % 4 * 16 + b.toNat / 16 < 64 by omega),
      is_digit (show b.toNat % 16 * 4 + c.toNat / 64 < 64 by omega),
      is_digit (show c.toNat % 64 < 64 by omega)] using ih

theorem dot_not_mem_encode (bytes : Bytes) : (0x2E : UInt8) ∉ encode bytes := by
  intro member
  obtain ⟨n, below, is_dot⟩ := mem_encode bytes _ member
  exact digit_ne_dot n below is_dot

end ScriptGate.Base64Url
