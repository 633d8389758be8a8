import ScriptGate.Json.Record
import ScriptGate.Proofs.Json.Join
import ScriptGate.Proofs.Json.Passing

/-!
# The members of an object text

`textMembers` lists the members of an object as they stand in its text, repeats included. A value
keeps the last of each key. A record takes them one after the other: a known one may stand once and
the others are passed over.
-/

namespace ScriptGate.Json

mutual

/-- Reads the members of an object up to its end, in the order of the text. -/
def memberList (fuel depth : Nat) (first : Bool) (s : Bytes) : Parsed (List (String × Json)) :=
  match fuel with
  | 0 => fail .endInObject []
  | fuel + 1 =>
    match skipBlank s with
    | [] => fail .endInObject []
    | b :: r =>
      if b = 0x7D then .ok ([], r)
      else if first then memberListFrom fuel depth (b :: r)
      else if b = 0x2C then
        match skipBlank r with
        | [] => fail .endInValue []
        | c :: r =>
          if c = 0x7D then failOn .trailingComma (c :: r)
          else memberListFrom fuel depth (c :: r)
      else failOn .noObjectEnd (b :: r)

/-- Reads one member, which begins with the quote of its key, and the members after it. -/
def memberListFrom (fuel depth : Nat) (s : Bytes) : Parsed (List (String × Json)) :=
  match fuel with
  | 0 => fail .endInObject []
  | fuel + 1 =>
    match s with
    | 0x22 :: r =>
      match string r with
      | .error e => .error e
      | .ok (k, r) =>
        match skipBlank r with
        | [] => fail .endInObject []
        | c :: r =>
          if c = 0x3A then
            match value fuel depth r with
            | .ok (x, r) => (memberList fuel depth false r).map fun (ms, r) => ((k, x) :: ms, r)
            | .error e => .error e
          else failOn .noColon (c :: r)
    | _ => failOn .keyNotString s

end

/-- The members that a whole text writes as an object in which at most `depth` containers nest, the
object itself one of them. -/
def textMembers (depth : Nat) (s : Bytes) : Except SyntaxError (List (String × Json)) :=
  match skipBlank s with
  | [] => fail .endInValue []
  | b :: r =>
    if b = 0x7B then
      match depth with
      | 0 => failOn .tooDeep (b :: r)
      | depth + 1 =>
        match memberList (2 * s.length + 1) depth true r with
        | .ok (ms, r) => finish ms r
        | .error e => .error e
    else failOn .otherType (b :: r)

variable {fuel depth : Nat} {s r : Bytes} {ms : List (String × Json)}

/-! ### As a value -/

/-- A value keeps of the members of a text those that `insert` keeps. -/
theorem members_eq_map : (∀ first acc s, members fuel depth first acc s =
      (memberList fuel depth first s).map fun (ms, r) =>
        (.obj (ms.foldl (fun acc m => insert m.1 m.2 acc) acc), r)) ∧
    ∀ acc s, member fuel depth acc s = (memberListFrom fuel depth s).map fun (ms, r) =>
      (.obj (ms.foldl (fun acc m => insert m.1 m.2 acc) acc), r) := by
  induction fuel with
  | zero => simp [members, member, memberList, memberListFrom, fail, Except.map]
  | succ fuel ih =>
    obtain ⟨more, one⟩ := ih
    refine ⟨fun first acc s => ?_, fun acc s => ?_⟩
    · simp only [members, memberList]
      cases skipBlank s with
      | nil => rfl
      | cons b t =>
        simp only
        split
        · rfl
        split
        · exact one _ _
        split
        · cases skipBlank t with
          | nil => rfl
          | cons c u =>
            simp only
            split
            · rfl
            · exact one _ _
        · rfl
    · by_cases quote : ∃ t, s = 0x22 :: t
      · obtain ⟨t, rfl⟩ := quote
        simp only [member, memberListFrom]
        cases string t with
        | error e => rfl
        | ok token =>
          rcases token with ⟨k, u⟩
          simp only
          cases skipBlank u with
          | nil => rfl
          | cons c w =>
            simp only
            split
            · cases value fuel depth w with
              | error e => rfl
              | ok found =>
                simp only [more]
                cases memberList fuel depth false found.2 <;> rfl
            · rfl
      · have noKey : member (fuel + 1) depth acc s = failOn .keyNotString s := by
          rw [member]
          exact fun t same => quote ⟨t, same⟩
        rw [noKey, memberListFrom]
        · rfl
        · exact fun t same => quote ⟨t, same⟩

theorem finish_eq_ok_iff {α : Type} {x y : α} : finish x r = .ok y ↔ skipBlank r = [] ∧ x = y := by
  unfold finish
  split <;> simp_all [failOn]

/-- Exactly the texts of objects have members, and the object has them. -/
theorem textMembers_iff {kept : List (String × Json)} :
    (∃ ms, textMembers depth s = .ok ms ∧ ofPairs ms = kept) ↔ IsText depth s (.obj kept) := by
  constructor
  · rintro ⟨ms, read, rfl⟩
    unfold textMembers at read
    split at read
    · simp [fail] at read
    rename_i b t start
    split at read
    · rename_i first
      split at read
      · simp [failOn] at read
      · split at read
        · rename_i found
          obtain ⟨blank, rfl⟩ := finish_eq_ok_iff.mp read
          refine ⟨_, value_succ_iff.mpr ⟨b, t, start, .obj first rfl ?_⟩, blank⟩
          rw [members_eq_map.1, found]
          rfl
        · simp at read
    · simp [failOn] at read
  · rintro ⟨r, read, blank⟩
    obtain ⟨b, t, start, step⟩ := value_succ_iff.mp read
    cases step with
    | arr _ _ inside =>
      obtain ⟨xs, no⟩ := items_arr inside
      cases no
    | obj first deep inside =>
      subst first deep
      rw [members_eq_map.1] at inside
      obtain ⟨⟨ms, u⟩, found, same⟩ := map_eq_ok inside
      obtain ⟨kept, rfl⟩ := Prod.mk.inj same
      refine ⟨ms, ?_, Json.obj.inj kept⟩
      simp only [textMembers, start, if_true, found]
      exact finish_eq_ok_iff.mpr ⟨blank, rfl⟩

/-! ### As a record -/

section Records

variable {σ : Type} {fields : List (Field σ)} {take : String → σ → Json → Option σ}
  {more deeper : Nat} {st : σ} {b : UInt8} {t : Bytes}

/-- What a record makes of one more member: a known one is taken if it is the first of its name, any
other is passed over. -/
def absorb (fields : List (Field σ)) (take : String → σ → Json → Option σ) (st : σ)
    (m : String × Json) : Option σ :=
  match fields.find? (·.name = m.1) with
  | some f => if f.seen st then none else take f.name st m.2
  | none => some st

/-- The member of each name takes what `take` takes of a value that can be read. -/
def Takes (fields : List (Field σ)) (take : String → σ → Json → Option σ) : Prop :=
  ∀ f ∈ fields, ∀ fuel depth st s v r, value fuel depth s = .ok (v, r) →
    (f.read fuel depth st s).toOption = (take f.name st v).map (·, r)

def string? : Json → Option String
  | .str x => some x
  | _ => none

theorem stringValue_of_value {v : Json} (read : value fuel depth s = .ok (v, r)) :
    (stringValue s).toOption = v.string?.map (·, r) := by
  obtain ⟨b, t, start, begins⟩ := begins_of_value read
  by_cases quote : b = 0x22
  · subst quote
    cases fuel with
    | zero => simp [value, fail] at read
    | succ fuel =>
      obtain ⟨c, u, starts, step⟩ := value_succ_iff.mp read
      obtain ⟨rfl, rfl⟩ := List.cons.inj (start.symm.trans starts)
      cases step with
      | str _ token => simp [stringValue, start, token, string?, Except.toOption]
      | null first | true first | false first | arr first | obj first => simp at first
      | num first => simp [isDigit] at first
  · have other : stringValue s = failOn .otherType (b :: t) := by
      simp [stringValue, start, quote]
    cases v <;> simp_all [Begins, string?, failOn, Except.toOption]

/-- A value that is read where nothing stands for null. -/
theorem optional_of_value {v : Json} (read : value fuel depth s = .ok (v, r)) :
    optional (value fuel depth) s = .ok (if v = .null then none else some v, r) := by
  obtain ⟨b, t, start, begins⟩ := begins_of_value read
  by_cases null : b = 0x6E
  · subst null
    cases fuel with
    | zero => simp [value, fail] at read
    | succ fuel =>
      obtain ⟨c, u, starts, step⟩ := value_succ_iff.mp read
      obtain ⟨rfl, rfl⟩ := List.cons.inj (start.symm.trans starts)
      cases step with
      | null _ word => simp [optional, start, word, Except.map]
      | str first | true first | false first | arr first | obj first => simp at first
      | num first => simp [isDigit] at first
  · have solid : v ≠ .null := by
      rintro rfl
      exact null begins
    rw [← value_skipBlank, start] at read
    simp [optional, start, null, read, solid]

theorem recordMembers_next {first : Bool} (next : Next 0x7D first s b t) :
    recordMembers fields (fuel + 1) depth first st s =
      recordMember fields fuel depth st (b :: t) := by
  cases next with
  | first start other => simp [recordMembers, start, other]
  | later comma start other => simp [recordMembers, comma, start, other]

theorem length_next {close : UInt8} {first : Bool} (next : Next close first s b t) :
    t.length < s.length := by
  cases next with
  | first start _ => exact length_skipBlank start
  | later comma start _ =>
    have whole := length_skipBlank comma
    have rest := length_skipBlank start
    simp only [List.length_cons] at whole rest
    omega

theorem memberList_succ {first : Bool} (read : memberList (fuel + 1) depth first s = .ok (ms, r)) :
    (skipBlank s = 0x7D :: r ∧ ms = []) ∨
      ∃ b t, Next 0x7D first s b t ∧ memberListFrom fuel depth (b :: t) = .ok (ms, r) := by
  rw [memberList] at read
  split at read
  · simp [fail] at read
  rename_i b t start
  split at read
  · subst_vars
    obtain ⟨rfl, rfl⟩ := Prod.mk.inj (Except.ok.inj read)
    exact .inl ⟨start, rfl⟩
  split at read
  · subst_vars
    exact .inr ⟨b, t, .first start ‹_›, read⟩
  rename_i notFirst
  split at read
  · subst_vars
    split at read
    · simp [fail] at read
    split at read
    · simp [failOn] at read
    · obtain rfl : first = false := by simpa using notFirst
      exact .inr ⟨_, _, .later start ‹_› ‹_›, read⟩
  · simp [failOn] at read

theorem memberListFrom_succ (read : memberListFrom (fuel + 1) depth s = .ok (ms, r)) :
    ∃ key t u c x w rest, s = 0x22 :: t ∧ string t = .ok (key, u) ∧ skipBlank u = 0x3A :: c ∧
      value fuel depth c = .ok (x, w) ∧ memberList fuel depth false w = .ok (rest, r) ∧
      ms = (key, x) :: rest := by
  rw [memberListFrom.eq_def] at read
  simp only at read
  split at read
  · split at read
    · simp at read
    split at read
    · simp [fail] at read
    split at read
    · split at read
      · subst_vars
        obtain ⟨⟨rest, u⟩, others, same⟩ := map_eq_ok read
        obtain ⟨rfl, rfl⟩ := Prod.mk.inj same
        exact ⟨_, _, _, _, _, _, rest, rfl, ‹_›, ‹_›, ‹_›, others, rfl⟩
      · simp at read
    · simp [failOn] at read
  · simp [failOn] at read

theorem eq_ok_of_toOption {ε α : Type} {x : Except ε α} {y : α} (found : x.toOption = some y) :
    x = .ok y := by
  cases x with
  | error e => simp [Except.toOption] at found
  | ok a => exact congrArg _ (Option.some.inj found)

theorem eq_error_of_toOption {ε α : Type} {x : Except ε α} (none : x.toOption = none) :
    ∃ e, x = .error e := by
  cases x with
  | error e => exact ⟨e, rfl⟩
  | ok a => simp [Except.toOption] at none

theorem recordMember_toOption (takes : Takes fields take) (within : depth ≤ deeper)
    (members : ∀ st s ms r, memberList fuel depth false s = .ok (ms, r) → s.length ≤ more →
      (recordMembers fields more deeper false st s).toOption =
        (ms.foldlM (absorb fields take) st).map (·, r))
    (enough : fuel ≤ more) (fits : s.length ≤ more + 2)
    (read : memberListFrom (fuel + 1) depth s = .ok (ms, r)) :
    (recordMember fields (more + 1) deeper st s).toOption =
      (ms.foldlM (absorb fields take) st).map (·, r) := by
  obtain ⟨key, t, u, c, x, w, rest, rfl, token, colon, found, others, rfl⟩ :=
    memberListFrom_succ read
  have in_string := length_skipString (skipString_of_string token)
  have in_blanks := length_skipBlank colon
  obtain ⟨in_value, passed⟩ := skipValue_of_value found
  simp only [List.length_cons] at fits in_blanks
  have left_fits : w.length ≤ more := by omega
  rw [List.foldlM_cons]
  cases known : fields.find? (·.name = key) with
  | none =>
    simp only [recordMember, token, known, colon, if_true, absorb]
    rw [passed (2 * more + 2) (by omega)]
    exact members st w rest r others left_fits
  | some f =>
    simp only [recordMember, token, known, absorb]
    split
    · rfl
    simp only [colon, if_true]
    have one := takes f (List.mem_of_find?_eq_some known) more deeper st c x w
      (value_mono found enough within)
    cases taken : take f.name st x with
    | none =>
      obtain ⟨e, failed⟩ := eq_error_of_toOption (by rw [one, taken]; rfl)
      rw [failed]
      rfl
    | some st' =>
      rw [eq_ok_of_toOption (one.trans (congrArg _ taken))]
      exact members st' w rest r others left_fits

/-- A record takes the members of a text one after the other. -/
theorem recordMembers_toOption (takes : Takes fields take) (within : depth ≤ deeper) :
    (∀ more first st s ms r, memberList fuel depth first s = .ok (ms, r) → fuel ≤ more →
      s.length ≤ more → (recordMembers fields more deeper first st s).toOption =
        (ms.foldlM (absorb fields take) st).map (·, r)) ∧
    ∀ more st s ms r, memberListFrom fuel depth s = .ok (ms, r) → fuel ≤ more →
      s.length ≤ more + 1 → (recordMember fields more deeper st s).toOption =
        (ms.foldlM (absorb fields take) st).map (·, r) := by
  induction fuel with
  | zero => simp [memberList, memberListFrom, fail]
  | succ fuel ih =>
    refine ⟨fun more first st s ms r read enough fits => ?_,
      fun more st s ms r read enough fits => ?_⟩ <;>
      obtain ⟨more, rfl⟩ : ∃ n, more = n + 1 := ⟨more - 1, by omega⟩
    · rcases memberList_succ read with ⟨close, rfl⟩ | ⟨b, t, next, one⟩
      · simp [recordMembers, close, Except.toOption]
      · rw [recordMembers_next next]
        have shorter := length_next next
        exact ih.2 more st (b :: t) ms r one (by omega) (by rw [List.length_cons]; omega)
    · exact recordMember_toOption takes within
        (fun st s ms r read fits => ih.1 more false st s ms r read (by omega) fits)
        (by omega) fits read

/-- A whole text that has members is read as a record by taking them. -/
theorem record_toOption (takes : Takes fields take) (within : depth ≤ deeper)
    (read : textMembers depth s = .ok ms) (st : σ) :
    ∃ r, skipBlank r = [] ∧ (record fields (fuelFor s) deeper st s).toOption =
      (ms.foldlM (absorb fields take) st).map (·, r) := by
  unfold textMembers at read
  split at read
  · simp [fail] at read
  rename_i b t start
  split at read
  · rename_i first
    split at read
    · simp [failOn] at read
    · rename_i depth
      split at read
      · rename_i listed u found
        obtain ⟨blank, rfl⟩ := finish_eq_ok_iff.mp read
        obtain ⟨inner, rfl⟩ : ∃ n, deeper = n + 1 := ⟨deeper - 1, by omega⟩
        have shorter := length_skipBlank start
        simp only [List.length_cons] at shorter
        refine ⟨u, blank, ?_⟩
        simp only [record, start, first, if_true]
        exact (recordMembers_toOption takes (by omega)).1 _ true st t listed u found
          (by simp [fuelFor]) (by simp only [fuelFor]; omega)
      · simp at read
  · simp [failOn] at read

end Records

end ScriptGate.Json
