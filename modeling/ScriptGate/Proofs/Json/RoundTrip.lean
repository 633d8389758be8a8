import ScriptGate.Json.Record
import ScriptGate.Proofs.Json.Tokens
import ScriptGate.Proofs.Json.Values

/-!
# Values and records read back

The text of a value that fits is read as that value, and what is behind it is left alone. `Written`
says the same of the members of a record: each of them is read where it stands, whatever else the
record holds.
-/

namespace ScriptGate.Json

variable {depth fuel : Nat} {rest : Bytes}

/-! ### How texts begin -/

/-- A byte that begins a value: no blank, and nothing that stands between values or ends them. -/
def Opens (b : UInt8) : Prop :=
  isBlankByte b = false ∧ b ≠ 0x2C ∧ b ≠ 0x5D ∧ b ≠ 0x7D

instance (b : UInt8) : Decidable (Opens b) := inferInstanceAs (Decidable (_ ∧ _))

theorem opens_of_numeric {b : UInt8} (numeric : b = 0x2D ∨ isDigit b = true) :
    Opens b ∧ b ≠ 0x6E ∧ b ≠ 0x74 ∧ b ≠ 0x66 ∧ b ≠ 0x22 ∧ b ≠ 0x5B ∧ b ≠ 0x7B := by
  have other (c : UInt8) (not : ¬ (c = 0x2D ∨ isDigit c = true)) : b ≠ c :=
    fun equal => not (equal ▸ numeric)
  have solid : isBlankByte b = false := by
    simp [isBlankByte, other 0x20 (by decide), other 0x0A (by decide), other 0x09 (by decide),
      other 0x0D (by decide)]
  exact ⟨⟨solid, other _ (by decide), other _ (by decide), other _ (by decide)⟩,
    other _ (by decide), other _ (by decide), other _ (by decide), other _ (by decide),
    other _ (by decide), other _ (by decide)⟩

theorem skipBlank_cons {b : UInt8} (r : Bytes) (solid : isBlankByte b = false) :
    skipBlank (b :: r) = b :: r := by simp [skipBlank, solid]

theorem stops_cons {b : UInt8} (r : Bytes)
    (stops : isDigit b = false ∧ b ≠ 0x2E ∧ isExponentMark b = false) : Stops (b :: r) := by
  rintro c t equal
  obtain ⟨rfl, -⟩ := List.cons.inj equal
  exact stops

theorem encode_head {v : Json} (numbers : ∀ n ∈ v.numbers, n.ReadsBack) :
    ∃ b r, v.encode = b :: r ∧ Opens b ∧ (b = 0x6E → v = .null) := by
  cases v with
  | null => exact ⟨0x6E, _, rfl, by decide, fun _ => rfl⟩
  | bool b => cases b <;> exact ⟨_, _, rfl, by decide, by decide⟩
  | num n =>
    obtain ⟨b, r, shape, numeric⟩ := number_head (numbers n (by simp [Json.numbers]))
    obtain ⟨opens, notNull, -⟩ := opens_of_numeric numeric
    exact ⟨b, r, shape, opens, fun equal => absurd equal notNull⟩
  | str s => exact ⟨0x22, _, rfl, by decide, fun equal => absurd equal (by decide)⟩
  | arr items => exact ⟨0x5B, _, by rw [encode], by decide, fun equal => absurd equal (by decide)⟩
  | obj members =>
    exact ⟨0x7B, _, by rw [encode], by decide, fun equal => absurd equal (by decide)⟩

/-! ### Values -/

/-- The text of a value is read as the value. -/
def Reads (depth : Nat) (v : Json) : Prop :=
  ∀ fuel rest, v.encode.length ≤ fuel → Stops rest →
    value fuel depth (v.encode ++ rest) = .ok (v, rest)

theorem encode_null : encode .null = [0x6E, 0x75, 0x6C, 0x6C] := rfl

theorem encode_true : encode (.bool true) = [0x74, 0x72, 0x75, 0x65] := rfl

theorem encode_false : encode (.bool false) = [0x66, 0x61, 0x6C, 0x73, 0x65] := rfl

theorem exists_fuel {v : Json} {b : UInt8} {r : Bytes} (shape : v.encode = b :: r)
    (enough : v.encode.length ≤ fuel) : ∃ more, fuel = more + 1 := by
  rw [shape, List.length_cons] at enough
  exact ⟨fuel - 1, by omega⟩

theorem value_num {s r : Bytes} {n : Json.Number} (read : number s = .ok (n, r)) :
    value (fuel + 1) depth s = .ok (.num n, r) := by
  obtain ⟨b, t, rfl, numeric⟩ := number_head read
  obtain ⟨opens, h1, h2, h3, h4, h5, h6⟩ := opens_of_numeric numeric
  rw [value, skipBlank_cons t opens.1]
  simp [h1, h2, h3, h4, h5, h6, numeric, read]

theorem reads_null : Reads depth .null := by
  intro fuel rest enough _
  obtain ⟨fuel, rfl⟩ := exists_fuel encode_null enough
  simp [encode_null, value, skipBlank, isBlankByte, expect, Except.map]

theorem reads_bool (b : Bool) : Reads depth (.bool b) := by
  intro fuel rest enough _
  cases b with
  | true =>
    obtain ⟨fuel, rfl⟩ := exists_fuel encode_true enough
    simp [encode_true, value, skipBlank, isBlankByte, expect, Except.map]
  | false =>
    obtain ⟨fuel, rfl⟩ := exists_fuel encode_false enough
    simp [encode_false, value, skipBlank, isBlankByte, expect, Except.map]

theorem reads_num {n : Json.Number} (back : n.ReadsBack) : Reads depth (.num n) := by
  intro fuel rest enough stops
  have read : number (n.encode ++ rest) = .ok (n, rest) := by
    simpa using number_append stops back
  obtain ⟨b, t, shape, -⟩ := number_head back
  obtain ⟨fuel, rfl⟩ := exists_fuel (v := .num n) shape enough
  exact value_num read

theorem quoted_append (s : String) (r : Bytes) :
    quoted s ++ r = 0x22 :: ((Bytes.ofString s).flatMap escapeByte ++ 0x22 :: r) := by
  simp [quoted]

theorem reads_str (s : String) : Reads depth (.str s) := by
  intro fuel rest enough _
  obtain ⟨fuel, rfl⟩ := exists_fuel (v := .str s) rfl enough
  rw [encode, quoted_append, value, skipBlank_cons _ (by decide)]
  simp [string_quoted]

/-! ### Arrays -/

def itemsTail (xs : List Json) : Bytes := xs.flatMap fun x => 0x2C :: x.encode

theorem encodeItems_cons (x : Json) (xs : List Json) :
    encodeItems (x :: xs) = x.encode ++ itemsTail xs := by
  induction xs generalizing x with
  | nil => simp [encodeItems, itemsTail]
  | cons y rest ih => rw [encodeItems, ih]; simp [itemsTail]

theorem stops_itemsTail (xs : List Json) : Stops (itemsTail xs ++ 0x5D :: rest) := by
  cases xs with
  | nil => exact stops_cons _ (by decide)
  | cons x xs => exact stops_cons _ (by decide)

/-- What is known of the values in a container: how their texts begin, and that they are read. -/
structure Readable (depth : Nat) (v : Json) : Prop where
  head : ∃ b r, v.encode = b :: r ∧ Opens b
  reads : Reads depth v

theorem items_tail {xs : List Json} (readable : ∀ x ∈ xs, Readable depth x) (acc : List Json)
    (rest : Bytes) (enough : (itemsTail xs).length + 1 ≤ fuel) :
    items fuel depth false acc (itemsTail xs ++ 0x5D :: rest) =
      .ok (.arr (acc.reverse ++ xs), rest) := by
  induction xs generalizing fuel acc with
  | nil =>
    obtain ⟨fuel, rfl⟩ : ∃ more, fuel = more + 1 := ⟨fuel - 1, by omega⟩
    simp [itemsTail, items, skipBlank_cons rest (b := 0x5D) (by decide)]
  | cons x xs ih =>
    obtain ⟨⟨b, r, shape, solid, -, noEnd, -⟩, reads⟩ := readable x (by simp)
    have length : (itemsTail (x :: xs)).length = 1 + x.encode.length + (itemsTail xs).length := by
      simp [itemsTail]; omega
    have read := reads (fuel - 1) (itemsTail xs ++ 0x5D :: rest) (by omega) (stops_itemsTail xs)
    have later := ih (fun y member => readable y (List.mem_cons_of_mem _ member)) (x :: acc)
      (show (itemsTail xs).length + 1 ≤ fuel - 1 by omega)
    obtain ⟨fuel, rfl⟩ : ∃ more, fuel = more + 1 := ⟨fuel - 1, by omega⟩
    have text : itemsTail (x :: xs) ++ 0x5D :: rest =
        0x2C :: b :: (r ++ (itemsTail xs ++ 0x5D :: rest)) := by
      simp [itemsTail, shape]
    rw [shape, List.cons_append, Nat.add_sub_cancel] at read
    rw [text, items, skipBlank_cons _ (by decide)]
    simp only [skipBlank_cons _ solid, noEnd, read]
    simpa using later

theorem reads_arr {xs : List Json} (readable : ∀ x ∈ xs, Readable depth x) :
    Reads (depth + 1) (.arr xs) := by
  intro fuel rest enough _
  rw [encode, List.length_cons, List.length_append, List.length_singleton] at enough
  obtain ⟨fuel, rfl⟩ : ∃ more, fuel = more + 2 := ⟨fuel - 2, by omega⟩
  have first : value (fuel + 2) (depth + 1) (encode (.arr xs) ++ rest) =
      items (fuel + 1) depth true [] (encodeItems xs ++ 0x5D :: rest) := by
    rw [encode, List.cons_append, value, skipBlank_cons _ (by decide)]
    simp
  rw [first]
  cases xs with
  | nil => rw [encodeItems, List.nil_append, items, skipBlank_cons _ (by decide)]; simp
  | cons x xs =>
    obtain ⟨⟨b, r, shape, solid, -, noEnd, -⟩, reads⟩ := readable x (by simp)
    rw [encodeItems_cons, List.length_append] at enough
    have nonempty : 1 ≤ x.encode.length := by simp [shape]
    have read := reads fuel (itemsTail xs ++ 0x5D :: rest) (by omega) (stops_itemsTail xs)
    have later := items_tail (fun y member => readable y (List.mem_cons_of_mem _ member)) [x] rest
      (show (itemsTail xs).length + 1 ≤ fuel by omega)
    rw [shape, List.cons_append] at read
    rw [encodeItems_cons, shape, List.append_assoc, List.cons_append, items,
      skipBlank_cons _ solid]
    simp only [noEnd, read]
    simpa using later

/-! ### Objects -/

def membersTail (ms : List (String × Json)) : Bytes :=
  ms.flatMap fun m => 0x2C :: (quoted m.1 ++ 0x3A :: m.2.encode)

theorem encodeMembers_cons (m : String × Json) (ms : List (String × Json)) :
    encodeMembers (m :: ms) = quoted m.1 ++ 0x3A :: (m.2.encode ++ membersTail ms) := by
  induction ms generalizing m with
  | nil => simp [encodeMembers, membersTail]
  | cons n rest ih => rw [encodeMembers, ih]; simp [membersTail]

theorem stops_membersTail (ms : List (String × Json)) : Stops (membersTail ms ++ 0x7D :: rest) := by
  cases ms with
  | nil => exact stops_cons _ (by decide)
  | cons m ms => exact stops_cons _ (by decide)

theorem length_quoted (s : String) : 2 ≤ (quoted s).length := by simp [quoted]

theorem member_eq (key : String) {v : Json} (acc : List (String × Json)) {text r : Bytes}
    (read : value fuel depth text = .ok (v, r)) :
    member (fuel + 1) depth acc (quoted key ++ 0x3A :: text) =
      members fuel depth false (insert key v acc) r := by
  rw [quoted_append, member]
  simp [string_quoted, skipBlank_cons text (b := 0x3A) (by decide), read]

theorem members_tail {ms : List (String × Json)} (readable : ∀ m ∈ ms, Readable depth m.2)
    (acc : List (String × Json)) (sorted : Sorted (acc ++ ms)) (rest : Bytes)
    (enough : (membersTail ms).length + 1 ≤ fuel) :
    members fuel depth false acc (membersTail ms ++ 0x7D :: rest) =
      .ok (.obj (acc ++ ms), rest) := by
  induction ms generalizing fuel acc with
  | nil =>
    obtain ⟨fuel, rfl⟩ : ∃ more, fuel = more + 1 := ⟨fuel - 1, by omega⟩
    simp [membersTail, members, skipBlank_cons rest (b := 0x7D) (by decide)]
  | cons m ms ih =>
    obtain ⟨key, v⟩ := m
    have reads : Reads depth v := (readable (key, v) (by simp)).reads
    have length : (membersTail ((key, v) :: ms)).length =
        2 + (quoted key).length + v.encode.length + (membersTail ms).length := by
      simp [membersTail]; omega
    have quotes := length_quoted key
    obtain ⟨fuel, rfl⟩ : ∃ more, fuel = more + 2 := ⟨fuel - 2, by omega⟩
    have read := reads fuel (membersTail ms ++ 0x7D :: rest) (by omega) (stops_membersTail ms)
    have last : ∀ other ∈ acc, other.1 < key := fun other member => by
      rw [Sorted, List.map_append] at sorted
      exact (List.pairwise_append.mp sorted).2.2 other.1 (List.mem_map_of_mem member) key (by simp)
    have added : insert key v acc = acc ++ [(key, v)] := insert_last last
    have later := ih (fun other member => readable other (List.mem_cons_of_mem _ member))
      (acc ++ [(key, v)]) (by simpa using sorted)
      (show (membersTail ms).length + 1 ≤ fuel by omega)
    have text : membersTail ((key, v) :: ms) ++ 0x7D :: rest =
        0x2C :: (quoted key ++ 0x3A :: (v.encode ++ (membersTail ms ++ 0x7D :: rest))) := by
      simp [membersTail]
    have one := member_eq key acc read
    rw [quoted_append] at one
    rw [text, members, skipBlank_cons _ (by decide), quoted_append]
    simp only [skipBlank_cons (b := 0x22) _ (by decide)]
    simpa [one, added] using later

theorem reads_obj {ms : List (String × Json)} (readable : ∀ m ∈ ms, Readable depth m.2)
    (sorted : Sorted ms) : Reads (depth + 1) (.obj ms) := by
  intro fuel rest enough _
  rw [encode, List.length_cons, List.length_append, List.length_singleton] at enough
  obtain ⟨fuel, rfl⟩ : ∃ more, fuel = more + 2 := ⟨fuel - 2, by omega⟩
  have first : value (fuel + 2) (depth + 1) (encode (.obj ms) ++ rest) =
      members (fuel + 1) depth true [] (encodeMembers ms ++ 0x7D :: rest) := by
    rw [encode, List.cons_append, value, skipBlank_cons _ (by decide)]
    simp
  rw [first]
  cases ms with
  | nil => rw [encodeMembers, List.nil_append, members, skipBlank_cons _ (by decide)]; simp
  | cons m ms =>
    obtain ⟨key, v⟩ := m
    have reads : Reads depth v := (readable (key, v) (by simp)).reads
    have quotes := length_quoted key
    rw [encodeMembers_cons] at enough
    simp only [List.length_append, List.length_cons] at enough
    obtain ⟨fuel, rfl⟩ : ∃ more, fuel = more + 1 := ⟨fuel - 1, by omega⟩
    have read := reads fuel (membersTail ms ++ 0x7D :: rest) (by omega) (stops_membersTail ms)
    have later := members_tail
      (fun other member => readable other (List.mem_cons_of_mem _ member)) [(key, v)]
      (by simpa using sorted) rest (show (membersTail ms).length + 1 ≤ fuel by omega)
    have one := member_eq key [] read
    have text : encodeMembers ((key, v) :: ms) ++ 0x7D :: rest =
        quoted key ++ 0x3A :: (v.encode ++ (membersTail ms ++ 0x7D :: rest)) := by
      simp [encodeMembers_cons]
    rw [quoted_append] at one
    rw [text, quoted_append, members, skipBlank_cons _ (by decide)]
    simpa [one, insert] using later

/-! ### All values -/

theorem mem_numbersIn {n : Json.Number} {x : Json} {xs : List Json} (member : x ∈ xs)
    (inside : n ∈ x.numbers) : n ∈ numbersIn xs := by
  induction xs with
  | nil => simp at member
  | cons y rest ih =>
    rw [numbersIn, List.mem_append]
    rcases List.mem_cons.mp member with rfl | later
    · exact .inl inside
    · exact .inr (ih later)

theorem mem_numbersOf {n : Json.Number} {m : String × Json} {ms : List (String × Json)}
    (member : m ∈ ms) (inside : n ∈ m.2.numbers) : n ∈ numbersOf ms := by
  induction ms with
  | nil => simp at member
  | cons other rest ih =>
    obtain ⟨k, x⟩ := other
    rw [numbersOf, List.mem_append]
    rcases List.mem_cons.mp member with rfl | later
    · exact .inl inside
    · exact .inr (ih later)

/-- A value that fits, and whose numbers are read back, is read back from its text. -/
theorem reads_of_fits {v : Json} (fits : Fits depth v)
    (numbers : ∀ n ∈ v.numbers, n.ReadsBack) : Reads depth v := by
  have readable {depth : Nat} {v : Json} (numbers : ∀ n ∈ v.numbers, n.ReadsBack)
      (reads : Reads depth v) : Readable depth v := by
    obtain ⟨b, r, shape, opens, -⟩ := encode_head numbers
    exact ⟨⟨b, r, shape, opens⟩, reads⟩
  -- The induction is on the depth: a container reads what is in it with one level less.
  induction depth using Nat.strongRecOn generalizing v with
  | ind depth ih =>
    cases v with
    | null => exact reads_null
    | bool b => exact reads_bool b
    | num n => exact reads_num (numbers n (by simp [Json.numbers]))
    | str s => exact reads_str s
    | arr items =>
      cases depth with
      | zero => exact absurd fits not_fits_zero_arr
      | succ depth =>
        refine reads_arr fun x member => ?_
        have inside : ∀ n ∈ x.numbers, n.ReadsBack := fun n inside =>
          numbers n (by rw [Json.numbers]; exact mem_numbersIn member inside)
        exact readable inside (ih depth (by omega) (fits_arr_iff.mp fits x member) inside)
    | obj members =>
      cases depth with
      | zero => exact absurd fits not_fits_zero_obj
      | succ depth =>
        have fit := fits_obj_iff.mp fits
        refine reads_obj (fun m member => ?_) fit.sorted
        have inside : ∀ n ∈ m.2.numbers, n.ReadsBack := fun n inside =>
          numbers n (by rw [Json.numbers]; exact mem_numbersOf member inside)
        exact readable inside (ih depth (by omega) (fit.fits m member) inside)

/-- A value that fits is what its text says, with nothing behind it. -/
theorem parse_encode {v : Json} (fits : Fits maxDepth v)
    (numbers : ∀ n ∈ v.numbers, n.ReadsBack) : parse v.encode = .ok v := by
  have enough : v.encode.length ≤ fuelFor v.encode := by
    simp only [fuelFor]
    omega
  have read := reads_of_fits fits numbers _ [] enough (by simp [Stops])
  rw [List.append_nil] at read
  rw [parse, read]
  rfl

end ScriptGate.Json
