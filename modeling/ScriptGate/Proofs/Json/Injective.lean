import ScriptGate.Proofs.Decimal.Shortest
import ScriptGate.Proofs.Json.RoundTrip

/-!
# Texts tell values apart

Two values of one text are equal. No reader takes part in this: a text settles its value in front of
anything that does not go on with a number, which `Settles` says of one value. The first byte tells
what kind of value a text writes, and a number ends where its bytes do.
-/

namespace ScriptGate.Json

open Decimal (Style)
open Decimal.Style (IsNumeral)

/-! ### Texts of numbers -/

theorem ofString_injective {s t : String} (same : Bytes.ofString s = Bytes.ofString t) : s = t :=
  Option.some.inj <| by rw [← Bytes.toString?_ofString s, same, Bytes.toString?_ofString]

def Number.text : Number → String
  | .int i _ => intText i
  | .float x _ => floatText x

theorem Number.encode_eq (n : Number) : n.encode = Bytes.ofString n.text := by cases n <;> rfl

theorem isNumeral_repr (n : Nat) : ∀ c ∈ n.repr.toList, c.isDigit = true := by
  rw [Nat.repr_eq_ofList_toDigits, String.toList_ofList]
  exact fun c member => Nat.isDigit_of_mem_toDigits (by decide) (by decide) member

/-- The text of an integer: a minus or none, and digits. -/
theorem intText_chars (i : Int) :
    (intText i).toList ≠ [] ∧ ∀ c ∈ (intText i).toList, c.isDigit = true ∨ c = '-' := by
  have nonempty (n : Nat) : n.repr.toList ≠ [] := by
    rw [Nat.repr_eq_ofList_toDigits, String.toList_ofList]
    exact List.ne_nil_of_length_pos Nat.length_toDigits_pos
  rw [intText, Int.toString_eq_repr, Int.repr_eq_if]
  split
  · exact ⟨nonempty _, fun c member => .inl (isNumeral_repr _ c member)⟩
  · rw [String.toList_append]
    refine ⟨by simp, fun c member => ?_⟩
    rcases List.mem_append.mp member with sign | digit
    · exact .inr (by simpa using sign)
    · exact .inl (isNumeral_repr _ c digit)

theorem floatText_chars (x : Binary64) :
    (floatText x).toList = (if x.isNegative then '-' :: floatStyle.body (Decimal.shortest x)
      else floatStyle.body (Decimal.shortest x)) := by
  rw [floatText, Style.write_eq, String.toList_ofList]

theorem mem_floatText {x : Binary64} {c : Char} (member : c ∈ (floatText x).toList) :
    IsNumeral c := by
  have body := (floatStyle.isBody_body (Decimal.shortest x)).numeral
  rw [floatText_chars] at member
  split at member
  · rcases List.mem_cons.mp member with rfl | inside
    · exact .inr (by decide)
    · exact body c inside
  · exact body c member

theorem floatText_marked (x : Binary64) : ∃ c ∈ (floatText x).toList, c = '.' ∨ c = 'e' := by
  have marked := floatStyle.marked_body rfl (Decimal.shortest x)
  rw [floatText_chars]
  rcases marked with point | power
  · exact ⟨'.', by split <;> simp [point], .inl rfl⟩
  · exact ⟨'e', by split <;> simp [power], .inr rfl⟩

theorem floatText_injective {x y : Binary64} (finite : x.isFinite = true)
    (finite' : y.isFinite = true) (same : floatText x = floatText y) : x = y := by
  obtain ⟨sign, digits⟩ := floatStyle.write_injective same
  exact Decimal.shortest_injective finite finite' sign digits

theorem Number.text_chars (n : Number) :
    n.text.toList ≠ [] ∧ ∀ c ∈ n.text.toList, IsNumeral c := by
  cases n with
  | int i word =>
    refine ⟨(intText_chars i).1, fun c member => ?_⟩
    rcases (intText_chars i).2 c member with digit | rfl
    · exact .inl digit
    · exact .inr (by decide)
  | float x finite =>
    refine ⟨fun empty => ?_, fun c member => mem_floatText member⟩
    obtain ⟨c, member, -⟩ := floatText_marked x
    rw [show (floatText x).toList = [] from empty] at member
    cases member

/-- Integers are read back, doubles are told apart by their shortest digits, and only a double has a
point or an exponent. -/
theorem Number.text_injective {n m : Number} (same : n.text = m.text) : n = m := by
  have apart (i : Int) (x : Binary64) : intText i ≠ floatText x := by
    intro same
    obtain ⟨c, member, mark⟩ := floatText_marked x
    rw [← same] at member
    rcases (intText_chars i).2 c member with digit | rfl
    · rcases mark with rfl | rfl <;> exact absurd digit (by decide)
    · exact absurd mark (by decide)
  cases n with
  | int i word =>
    cases m with
    | int j word' =>
      have one := number_intText word
      have other := number_intText word'
      rw [show intText i = intText j from same, other] at one
      exact (Prod.mk.inj (Except.ok.inj one)).1.symm
    | float y finite => exact absurd same (apart i y)
  | float x finite =>
    cases m with
    | int j word => exact absurd same.symm (apart j x)
    | float y finite' =>
      obtain rfl := floatText_injective finite finite' same
      rfl

/-! ### The bytes of numbers -/

def isNumberByte (b : UInt8) : Bool :=
  isDigit b || b == 0x2D || b == 0x2E || b == 0x65 || b == 0x2B

theorem isNumberByte_utf8 {c : Char} (numeral : IsNumeral c) :
    ∃ b, String.utf8EncodeChar c = [b] ∧ isNumberByte b = true := by
  rcases numeral with digit | mark
  · exact ⟨_, utf8EncodeChar_digit digit, by simp [isNumberByte, isDigit_digitByte digit]⟩
  · simp only [List.mem_cons, List.not_mem_nil, or_false] at mark
    rcases mark with rfl | rfl | rfl | rfl <;> exact ⟨_, rfl, by decide⟩

theorem Number.encode_bytes (n : Number) :
    n.encode ≠ [] ∧ ∀ b ∈ n.encode, isNumberByte b = true := by
  obtain ⟨nonempty, numeral⟩ := n.text_chars
  have bytes : n.encode = n.text.toList.flatMap String.utf8EncodeChar := by
    rw [n.encode_eq, ← ofString_ofList, String.ofList_toList]
  rw [bytes]
  constructor
  · obtain ⟨c, rest, shape⟩ := List.exists_cons_of_ne_nil nonempty
    obtain ⟨b, one, -⟩ := isNumberByte_utf8 (numeral c (by simp [shape]))
    rw [shape, List.flatMap_cons, one]
    exact List.cons_ne_nil _ _
  · intro b member
    obtain ⟨c, inside, member⟩ := List.mem_flatMap.mp member
    obtain ⟨b', one, byte⟩ := isNumberByte_utf8 (numeral c inside)
    rw [one] at member
    exact List.mem_singleton.mp member ▸ byte

/-- What can stand behind a value: it does not go on with the bytes of a number. -/
def Ends (rest : Bytes) : Prop := ∀ b r, rest = b :: r → isNumberByte b = false

theorem ends_nil : Ends [] := nofun

theorem ends_cons {b : UInt8} {r : Bytes} (other : isNumberByte b = false) : Ends (b :: r) := by
  rintro c t equal
  exact (List.cons.inj equal).1 ▸ other

theorem takeWhile_number {s rest : Bytes} (bytes : ∀ b ∈ s, isNumberByte b = true)
    (ends : Ends rest) : (s ++ rest).takeWhile isNumberByte = s := by
  rw [List.takeWhile_append_of_pos bytes]
  cases rest with
  | nil => simp
  | cons b r => rw [List.takeWhile_cons_of_neg (by simp [ends b r rfl]), List.append_nil]

/-! ### Values -/

/-- The text of a value settles the value and what is behind it. -/
def Settles (v : Json) : Prop :=
  ∀ w s t, Ends s → Ends t → v.encode ++ s = w.encode ++ t → v = w ∧ s = t

/-- What the first byte of a text says of its value. -/
def kindOf (b : UInt8) : Nat :=
  if b = 0x6E then 1 else if b = 0x74 then 2 else if b = 0x66 then 3 else if b = 0x22 then 4
  else if b = 0x5B then 5 else if b = 0x7B then 6 else if isNumberByte b then 7 else 0

def kind : Json → Nat
  | .null => 1
  | .bool true => 2
  | .bool false => 3
  | .str _ => 4
  | .arr _ => 5
  | .obj _ => 6
  | .num _ => 7

theorem kindOf_numberByte {b : UInt8} (byte : isNumberByte b = true) : kindOf b = 7 := by
  have other {c : UInt8} (not : isNumberByte c = false) : b ≠ c := by
    rintro rfl
    exact absurd byte (by simp [not])
  rw [kindOf, if_neg (other (by decide)), if_neg (other (by decide)), if_neg (other (by decide)),
    if_neg (other (by decide)), if_neg (other (by decide)), if_neg (other (by decide)), if_pos byte]

theorem encode_begins (v : Json) : ∃ b r, v.encode = b :: r ∧ kindOf b = v.kind := by
  cases v with
  | null => exact ⟨_, _, rfl, rfl⟩
  | bool b => cases b <;> exact ⟨_, _, rfl, rfl⟩
  | num n =>
    obtain ⟨nonempty, bytes⟩ := n.encode_bytes
    obtain ⟨b, r, shape⟩ := List.exists_cons_of_ne_nil nonempty
    exact ⟨b, r, by rw [encode, shape], kindOf_numberByte (bytes b (by simp [shape]))⟩
  | str s => exact ⟨0x22, _, rfl, rfl⟩
  | arr items => exact ⟨0x5B, _, by rw [encode], rfl⟩
  | obj members => exact ⟨0x7B, _, by rw [encode], rfl⟩

theorem kind_eq_of_text {v w : Json} {s t : Bytes} (same : v.encode ++ s = w.encode ++ t) :
    v.kind = w.kind := by
  obtain ⟨b, r, shape, kind⟩ := encode_begins v
  obtain ⟨b', r', shape', kind'⟩ := encode_begins w
  rw [shape, shape'] at same
  rw [← kind, ← kind', (List.cons.inj same).1]

theorem quoted_settles {s t : String} {r u : Bytes} (same : quoted s ++ r = quoted t ++ u) :
    s = t ∧ r = u := by
  rw [quoted_append, quoted_append] at same
  have one := string_quoted s r
  rw [(List.cons.inj same).2, string_quoted] at one
  obtain ⟨rfl, rfl⟩ := Prod.mk.inj (Except.ok.inj one)
  exact ⟨rfl, rfl⟩

theorem settles_num (n : Number) : Settles (.num n) := by
  intro w s t ends ends' same
  have kinds := kind_eq_of_text same
  cases w with
  | num m =>
    simp only [encode] at same
    have texts : n.encode = m.encode := by
      rw [← takeWhile_number n.encode_bytes.2 ends, same, takeWhile_number m.encode_bytes.2 ends']
    rw [texts] at same
    obtain rfl : n = m := Number.text_injective (ofString_injective (by
      rw [← n.encode_eq, ← m.encode_eq, texts]))
    exact ⟨rfl, List.append_cancel_left same⟩
  | bool b => cases b <;> simp [kind] at kinds
  | _ => simp [kind] at kinds

theorem ends_itemsTail (xs : List Json) (s : Bytes) : Ends (itemsTail xs ++ 0x5D :: s) := by
  cases xs <;> exact ends_cons (by decide)

theorem ends_membersTail (ms : List (String × Json)) (s : Bytes) :
    Ends (membersTail ms ++ 0x7D :: s) := by
  cases ms <;> exact ends_cons (by decide)

theorem itemsTail_settles {xs ys : List Json} {s t : Bytes} (settle : ∀ x ∈ xs, Settles x)
    (same : itemsTail xs ++ 0x5D :: s = itemsTail ys ++ 0x5D :: t) : xs = ys ∧ s = t := by
  induction xs generalizing ys with
  | nil =>
    cases ys with
    | nil => exact ⟨rfl, (List.cons.inj same).2⟩
    | cons y ys => exact absurd (List.cons.inj same).1 (by decide)
  | cons x xs ih =>
    cases ys with
    | nil => exact absurd (List.cons.inj same).1 (by decide)
    | cons y ys =>
      have split (z : Json) (zs : List Json) (r : Bytes) : itemsTail (z :: zs) ++ 0x5D :: r =
          0x2C :: (z.encode ++ (itemsTail zs ++ 0x5D :: r)) := by simp [itemsTail]
      rw [split, split] at same
      obtain ⟨rfl, rest⟩ := settle x (by simp) y _ _ (ends_itemsTail xs s) (ends_itemsTail ys t)
        (List.cons.inj same).2
      obtain ⟨rfl, rfl⟩ := ih (fun z member => settle z (List.mem_cons_of_mem _ member)) rest
      exact ⟨rfl, rfl⟩

theorem membersTail_settles {ms ns : List (String × Json)} {s t : Bytes}
    (settle : ∀ m ∈ ms, Settles m.2)
    (same : membersTail ms ++ 0x7D :: s = membersTail ns ++ 0x7D :: t) : ms = ns ∧ s = t := by
  induction ms generalizing ns with
  | nil =>
    cases ns with
    | nil => exact ⟨rfl, (List.cons.inj same).2⟩
    | cons n ns => exact absurd (List.cons.inj same).1 (by decide)
  | cons m ms ih =>
    cases ns with
    | nil => exact absurd (List.cons.inj same).1 (by decide)
    | cons n ns =>
      have split (z : String × Json) (zs : List (String × Json)) (r : Bytes) :
          membersTail (z :: zs) ++ 0x7D :: r =
            0x2C :: (quoted z.1 ++ 0x3A :: (z.2.encode ++ (membersTail zs ++ 0x7D :: r))) := by
        simp [membersTail]
      rw [split, split] at same
      obtain ⟨keys, behind⟩ := quoted_settles (List.cons.inj same).2
      obtain ⟨values, rest⟩ := settle m (by simp) n.2 _ _ (ends_membersTail ms s)
        (ends_membersTail ns t) (List.cons.inj behind).2
      obtain ⟨rfl, rfl⟩ := ih (fun z member => settle z (List.mem_cons_of_mem _ member)) rest
      exact ⟨by rw [Prod.ext keys values], rfl⟩

/-- A text of a value does not begin with the end of a container. -/
theorem encode_append_ne {b : UInt8} (other : kindOf b = 0) (v : Json) (s t : Bytes) :
    v.encode ++ s ≠ b :: t := by
  obtain ⟨c, r, shape, kind⟩ := encode_begins v
  intro same
  rw [shape] at same
  have positive : v.kind ≠ 0 := by
    cases v with
    | bool b => cases b <;> simp [Json.kind]
    | _ => simp [Json.kind]
  exact positive (by rw [← kind, (List.cons.inj same).1, other])

theorem encodeItems_settles {xs ys : List Json} {s t : Bytes} (settle : ∀ x ∈ xs, Settles x)
    (same : encodeItems xs ++ 0x5D :: s = encodeItems ys ++ 0x5D :: t) : xs = ys ∧ s = t := by
  cases xs with
  | nil =>
    cases ys with
    | nil => exact ⟨rfl, (List.cons.inj same).2⟩
    | cons y ys =>
      rw [encodeItems_cons, List.append_assoc] at same
      exact absurd same.symm (encode_append_ne (by decide) y _ _)
  | cons x xs =>
    cases ys with
    | nil =>
      rw [encodeItems_cons, List.append_assoc] at same
      exact absurd same (encode_append_ne (by decide) x _ _)
    | cons y ys =>
      -- With a comma in front the first item is as the others are.
      have commas : itemsTail (x :: xs) ++ 0x5D :: s = itemsTail (y :: ys) ++ 0x5D :: t := by
        rw [encodeItems_cons, encodeItems_cons] at same
        simpa [itemsTail] using same
      exact itemsTail_settles settle commas

theorem encodeMembers_settles {ms ns : List (String × Json)} {s t : Bytes}
    (settle : ∀ m ∈ ms, Settles m.2)
    (same : encodeMembers ms ++ 0x7D :: s = encodeMembers ns ++ 0x7D :: t) : ms = ns ∧ s = t := by
  have begins (m : String × Json) (ms : List (String × Json)) (s t : Bytes) :
      encodeMembers (m :: ms) ++ s ≠ 0x7D :: t := by
    rw [encodeMembers_cons, List.append_assoc, quoted_append]
    exact fun same => absurd (List.cons.inj same).1 (by decide)
  cases ms with
  | nil =>
    cases ns with
    | nil => exact ⟨rfl, (List.cons.inj same).2⟩
    | cons n ns => exact absurd same.symm (begins n ns _ _)
  | cons m ms =>
    cases ns with
    | nil => exact absurd same (begins m ms _ _)
    | cons n ns =>
      have commas : membersTail (m :: ms) ++ 0x7D :: s = membersTail (n :: ns) ++ 0x7D :: t := by
        rw [encodeMembers_cons, encodeMembers_cons] at same
        simpa [membersTail] using same
      exact membersTail_settles settle commas

theorem settles_arr {xs : List Json} (settle : ∀ x ∈ xs, Settles x) : Settles (.arr xs) := by
  intro w s t _ _ same
  have kinds := kind_eq_of_text same
  cases w with
  | arr ys =>
    rw [encode, encode] at same
    obtain ⟨rfl, rfl⟩ := encodeItems_settles (s := s) (t := t) settle
      (by simpa using (List.cons.inj same).2)
    exact ⟨rfl, rfl⟩
  | bool b => cases b <;> simp [kind] at kinds
  | _ => simp [kind] at kinds

theorem settles_obj {ms : List (String × Json)} (settle : ∀ m ∈ ms, Settles m.2) :
    Settles (.obj ms) := by
  intro w s t _ _ same
  have kinds := kind_eq_of_text same
  cases w with
  | obj ns =>
    rw [encode, encode] at same
    obtain ⟨rfl, rfl⟩ := encodeMembers_settles (s := s) (t := t) settle
      (by simpa using (List.cons.inj same).2)
    exact ⟨rfl, rfl⟩
  | bool b => cases b <;> simp [kind] at kinds
  | _ => simp [kind] at kinds

theorem settles_str (x : String) : Settles (.str x) := by
  intro w s t _ _ same
  have kinds := kind_eq_of_text same
  cases w with
  | str y =>
    rw [encode, encode] at same
    obtain ⟨rfl, rfl⟩ := quoted_settles same
    exact ⟨rfl, rfl⟩
  | bool b => cases b <;> simp [kind] at kinds
  | _ => simp [kind] at kinds

theorem settles_null : Settles .null := by
  intro w s t _ _ same
  have kinds := kind_eq_of_text same
  cases w with
  | null => exact ⟨rfl, List.append_cancel_left same⟩
  | bool b => cases b <;> simp [kind] at kinds
  | _ => simp [kind] at kinds

theorem settles_bool (b : Bool) : Settles (.bool b) := by
  intro w s t _ _ same
  have kinds := kind_eq_of_text same
  cases w with
  | bool c =>
    obtain rfl : b = c := by
      cases b <;> cases c <;> first | rfl | simp [kind] at kinds
    exact ⟨rfl, List.append_cancel_left same⟩
  | _ => cases b <;> simp [kind] at kinds

mutual

theorem settles : (v : Json) → Settles v
  | .null => settles_null
  | .bool b => settles_bool b
  | .num n => settles_num n
  | .str s => settles_str s
  | .arr items => settles_arr (settles_items items)
  | .obj members => settles_obj (settles_members members)

theorem settles_items : (xs : List Json) → ∀ x ∈ xs, Settles x
  | [], _, member => absurd member List.not_mem_nil
  | x :: rest, y, member => by
    rcases List.mem_cons.mp member with same | later
    · exact same ▸ settles x
    · exact settles_items rest y later

theorem settles_members : (ms : List (String × Json)) → ∀ m ∈ ms, Settles m.2
  | [], _, member => absurd member List.not_mem_nil
  | (_, x) :: rest, m, member => by
    rcases List.mem_cons.mp member with same | later
    · exact same ▸ settles x
    · exact settles_members rest m later

end

/-- Values of one text are equal. -/
theorem encode_injective {v w : Json} (same : v.encode = w.encode) : v = w :=
  (settles v w [] [] ends_nil ends_nil (by rw [same])).1

end ScriptGate.Json
