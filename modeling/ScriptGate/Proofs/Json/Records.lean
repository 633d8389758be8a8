import ScriptGate.Proofs.Json.RoundTrip

/-!
# Records read back

`Written` says that the members of a record, each with its text, take a reader from one state to
another. The record that is written with them is then read that way, and what is behind it is left
alone.
-/

namespace ScriptGate.Json

variable {σ : Type} {fields : List (Field σ)} {depth fuel : Nat} {rest : Bytes}

/-- Members that are known, that stand once, and whose texts are read wherever they stand. -/
inductive Written (fields : List (Field σ)) (depth : Nat) : σ → List (String × Bytes) → σ → Prop
  where
  | nil (st : σ) : Written fields depth st [] st
  | cons {st last : σ} {f : Field σ} {name : String} {text : Bytes}
      {members : List (String × Bytes)} (mid : σ) :
      fields.find? (·.name = name) = some f → f.seen st = false →
      (∀ fuel rest, text.length ≤ fuel → Stops rest →
        f.read fuel depth st (text ++ rest) = .ok (mid, rest)) →
      Written fields depth mid members last →
      Written fields depth st ((name, text) :: members) last

theorem Written.append {st m last : σ} {members others : List (String × Bytes)}
    (first : Written fields depth st members m) (second : Written fields depth m others last) :
    Written fields depth st (members ++ others) last := by
  induction first with
  | nil => exact second
  | cons mid known fresh reads _ ih => exact .cons mid known fresh reads (ih second)

/-- A member that is left out where there is nothing to write. -/
theorem Written.optional {α : Type} {x : Option α} {text : α → Bytes} {st last : σ} {f : Field σ}
    {name : String} (absent : x = none → last = st)
    (known : fields.find? (·.name = name) = some f) (fresh : f.seen st = false)
    (reads : ∀ v, x = some v → ∀ fuel rest, (text v).length ≤ fuel → Stops rest →
      f.read fuel depth st (text v ++ rest) = .ok (last, rest)) :
    Written fields depth st (x.map fun v => (name, text v)).toList last := by
  cases x with
  | none => rw [absent rfl]; exact .nil st
  | some v => exact .cons last known fresh (reads v rfl) (.nil last)

def recordTail (members : List (String × Bytes)) : Bytes :=
  members.flatMap fun m => 0x2C :: (quoted m.1 ++ 0x3A :: m.2)

theorem encodeRecord_cons (m : String × Bytes) (members : List (String × Bytes)) (rest : Bytes) :
    encodeRecord (m :: members) ++ rest =
      0x7B :: (quoted m.1 ++ 0x3A :: (m.2 ++ (recordTail members ++ 0x7D :: rest))) := by
  have joined (part : Bytes) : List.intercalate [0x2C] (part :: members.map fun m =>
      quoted m.1 ++ 0x3A :: m.2) = part ++ recordTail members := by
    induction members generalizing part with
    | nil => simp [recordTail]
    | cons n others ih =>
      rw [List.map_cons, List.intercalate_cons_cons, ih]
      simp [recordTail]
  have shape : encodeRecord (m :: members) = 0x7B :: (List.intercalate [0x2C]
      ((quoted m.1 ++ 0x3A :: m.2) :: members.map fun m => quoted m.1 ++ 0x3A :: m.2) ++ [0x7D]) :=
    rfl
  rw [shape, joined]
  simp

theorem stops_recordTail (members : List (String × Bytes)) :
    Stops (recordTail members ++ 0x7D :: rest) := by
  cases members with
  | nil => exact stops_cons _ (by decide)
  | cons m members => exact stops_cons _ (by decide)

theorem recordMember_eq {st mid : σ} {f : Field σ} {name : String} {text r : Bytes}
    (known : fields.find? (·.name = name) = some f) (fresh : f.seen st = false)
    (read : f.read fuel depth st text = .ok (mid, r)) :
    recordMember fields (fuel + 1) depth st (quoted name ++ 0x3A :: text) =
      recordMembers fields fuel depth false mid r := by
  rw [quoted_append, recordMember]
  simp [string_quoted, known, fresh, skipBlank_cons text (b := 0x3A) (by decide), read]

theorem recordMembers_tail {st last : σ} {members : List (String × Bytes)}
    (written : Written fields depth st members last) (rest : Bytes)
    (enough : (recordTail members).length + 1 ≤ fuel) :
    recordMembers fields fuel depth false st (recordTail members ++ 0x7D :: rest) =
      .ok (last, rest) := by
  induction written generalizing fuel with
  | nil st =>
    obtain ⟨fuel, rfl⟩ : ∃ more, fuel = more + 1 := ⟨fuel - 1, by omega⟩
    simp [recordTail, recordMembers, skipBlank_cons rest (b := 0x7D) (by decide)]
  | @cons st last f name text members mid known fresh reads _ ih =>
    have length : (recordTail ((name, text) :: members)).length =
        2 + (quoted name).length + text.length + (recordTail members).length := by
      simp [recordTail]; omega
    have quotes := length_quoted name
    obtain ⟨fuel, rfl⟩ : ∃ more, fuel = more + 2 := ⟨fuel - 2, by omega⟩
    have read := reads fuel (recordTail members ++ 0x7D :: rest) (by omega)
      (stops_recordTail members)
    have later := ih (show (recordTail members).length + 1 ≤ fuel by omega)
    have shape : recordTail ((name, text) :: members) ++ 0x7D :: rest =
        0x2C :: (quoted name ++ 0x3A :: (text ++ (recordTail members ++ 0x7D :: rest))) := by
      simp [recordTail]
    have one := recordMember_eq known fresh read
    rw [quoted_append] at one
    rw [shape, recordMembers, skipBlank_cons _ (by decide), quoted_append]
    simp only [skipBlank_cons (b := 0x22) _ (by decide)]
    simpa [one] using later

/-- A record is read from the text that is written with its members. -/
theorem record_encodeRecord {st last : σ} {m : String × Bytes} {members : List (String × Bytes)}
    (written : Written fields depth st (m :: members) last)
    (enough : (encodeRecord (m :: members)).length ≤ fuel) :
    record fields fuel (depth + 1) st (encodeRecord (m :: members) ++ rest) =
      .ok (last, rest) := by
  cases written with
  | @cons _ _ f name text _ mid known fresh reads others =>
    have length : (encodeRecord ((name, text) :: members)).length =
        3 + (quoted name).length + text.length + (recordTail members).length := by
      have shape := encodeRecord_cons (name, text) members []
      rw [List.append_nil] at shape
      simp [shape]; omega
    have quotes := length_quoted name
    obtain ⟨fuel, rfl⟩ : ∃ more, fuel = more + 2 := ⟨fuel - 2, by omega⟩
    have read := reads fuel (recordTail members ++ 0x7D :: rest) (by omega)
      (stops_recordTail members)
    have later := recordMembers_tail others rest
      (show (recordTail members).length + 1 ≤ fuel by omega)
    have one := recordMember_eq known fresh read
    rw [quoted_append] at one
    rw [encodeRecord_cons, record, skipBlank_cons _ (by decide), quoted_append]
    simp only [if_true]
    rw [recordMembers, skipBlank_cons _ (by decide)]
    simpa [one] using later

/-! ### Values of members -/

theorem stringValue_quoted (s : String) (r : Bytes) :
    stringValue (quoted s ++ r) = .ok (s, r) := by
  rw [quoted_append, stringValue, skipBlank_cons _ (by decide)]
  exact string_quoted s r

theorem optional_some {α : Type} {read : Bytes → Parsed α} {b : UInt8} {text r : Bytes} {x : α}
    (solid : isBlankByte b = false) (notNull : b ≠ 0x6E) (found : read (b :: text) = .ok (x, r)) :
    optional read (b :: text) = .ok (some x, r) := by
  rw [optional, skipBlank_cons _ solid]
  split
  · rename_i equal
    exact absurd (List.cons.inj equal).1 notNull
  · rw [found]

theorem optional_quoted (s : String) (r : Bytes) :
    optional stringValue (quoted s ++ r) = .ok (some s, r) := by
  have read := stringValue_quoted s r
  rw [quoted_append] at read ⊢
  exact optional_some (by decide) (by decide) read

/-- A null that may be left out is read as what is left out. -/
theorem optional_encode {v : Json} (reads : Reads depth v)
    (numbers : ∀ n ∈ v.numbers, n.ReadsBack) (enough : v.encode.length ≤ fuel)
    (stops : Stops rest) :
    optional (value fuel depth) (v.encode ++ rest) =
      .ok (if v = .null then none else some v, rest) := by
  split
  · subst_vars
    rw [encode_null, List.cons_append, optional, skipBlank_cons _ (by decide)]
    rfl
  · rename_i present
    obtain ⟨b, r, shape, opens, null⟩ := encode_head numbers
    have read := reads fuel rest enough stops
    rw [shape, List.cons_append] at read ⊢
    exact optional_some opens.1 (fun equal => present (null equal)) read

theorem integerValue_encode {low high i : Int} (word : IsWord i) (least : low ≤ i)
    (greatest : i ≤ high) (stops : Stops rest) :
    integerValue low high ((Json.int i).encode ++ rest) = .ok (i, rest) := by
  have back := readsBack_int word
  have read : number ((Number.int i word).encode ++ rest) = .ok (.int i word, rest) := by
    simpa using number_append stops back
  obtain ⟨b, r, shape, numeric⟩ := number_head read
  have text : (Json.int i).encode ++ rest = b :: r := by
    rw [← shape, Json.int, dif_pos word, encode]
  rw [shape] at read
  rw [text, integerValue, skipBlank_cons _ (opens_of_numeric numeric).1.1]
  simp [numeric, read, least, greatest]

end ScriptGate.Json
