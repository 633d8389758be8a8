import ScriptGate.Proofs.Json.Reading
import ScriptGate.Proofs.Json.Records
import ScriptGate.Proofs.Rpc.Envelope

/-!
# Requests read back

A request is read back from its text, but for an id and params that are null: they arrive as none.
What has been read once has no null there, so it is read back as it is.
-/

namespace ScriptGate.Rpc

open Json (Number Written)

/-- A request as it arrives: a null id and null params do not. -/
def Request.onWire (r : Request) : Request :=
  { r with id := r.id.filter (· ≠ .null), params := r.params.filter (· ≠ .null) }

namespace Request

def numbers (r : Request) : List Number :=
  r.id.elim [] Json.numbers ++ r.params.elim [] Json.numbers

/-- The values of a request can nest inside it. -/
structure Fits (r : Request) : Prop where
  id : ∀ v, r.id = some v → Json.Fits 126 v
  params : ∀ v, r.params = some v → Json.Fits 126 v

/-- The members of a request lead a reader to what arrives of it. -/
theorem written_fields {r : Request} (fits : r.Fits) (numbers : ∀ n ∈ r.numbers, n.ReadsBack) :
    Written fields 126 {}
      ([("jsonrpc", Json.quoted r.jsonrpc)] ++ (r.id.map fun v => ("id", v.encode)).toList ++
        [("method", Json.quoted r.method)] ++ (r.params.map fun v => ("params", v.encode)).toList ++
        [("context-version", Json.quoted r.contextVersion)])
      { jsonrpc := some r.jsonrpc, id := r.id.map fun v => if v = .null then none else some v,
        method := some r.method,
        params := r.params.map fun v => if v = .null then none else some v,
        contextVersion := some r.contextVersion } := by
  let tagged : Draft := { jsonrpc := some r.jsonrpc }
  let named : Draft :=
    { tagged with id := r.id.map fun v => if v = .null then none else some v }
  let called : Draft := { named with method := some r.method }
  let given : Draft :=
    { called with params := r.params.map fun v => if v = .null then none else some v }
  have inside {v : Json} (there : r.id = some v ∨ r.params = some v) :
      ∀ n ∈ v.numbers, n.ReadsBack := fun n member => numbers n (by
    rcases there with there | there <;> simp [Request.numbers, there, member])
  refine .append (m := given) (.append (m := called) (.append (m := named) (.append (m := tagged)
    (.cons tagged rfl rfl (fun fuel rest _ _ => ?_) (.nil _))
    (.optional (fun absent => ?_) rfl rfl fun v present fuel rest enough stops => ?_))
    (.cons called rfl rfl (fun fuel rest _ _ => ?_) (.nil _)))
    (.optional (fun absent => ?_) rfl rfl fun v present fuel rest enough stops => ?_))
    (.cons _ rfl rfl (fun fuel rest _ _ => ?_) (.nil _))
  · simp only [Json.stringValue_quoted]
    rfl
  · simp [absent, named, tagged]
  · have reads := Json.reads_of_fits (fits.id v present) (inside (.inl present))
    simp only [Json.optional_encode reads (inside (.inl present)) enough stops, named, present]
    rfl
  · simp only [Json.stringValue_quoted]
    rfl
  · simp [absent, given, called, named, tagged]
  · have reads := Json.reads_of_fits (fits.params v present) (inside (.inr present))
    simp only [Json.optional_encode reads (inside (.inr present)) enough stops, given, present]
    rfl
  · simp only [Json.stringValue_quoted]
    rfl

theorem join_map_null (x : Option Json) :
    (x.map fun v => if v = .null then none else some v).join = x.filter (· ≠ .null) := by
  cases x with
  | none => rfl
  | some v => by_cases null : v = .null <;> simp [null, Option.filter]

/-- A request whose values fit is read back, but for null values. -/
theorem decode_encode_request {r : Request} (fits : r.Fits)
    (numbers : ∀ n ∈ r.numbers, n.ReadsBack) : decode r.encode = .ok r.onWire := by
  have enough : r.encode.length ≤ Json.fuelFor r.encode := by simp only [Json.fuelFor]; omega
  have read : Json.record fields (Json.fuelFor r.encode) Json.maxDepth {} (r.encode ++ []) =
      .ok (_, []) := Json.record_encodeRecord (written_fields fits numbers) enough
  rw [List.append_nil] at read
  rw [decode, read]
  simp only [Draft.toRequest, join_map_null, Option.getD_some]
  rfl

theorem parse_encode_eq {r : Request} (fits : r.Fits) (numbers : ∀ n ∈ r.numbers, n.ReadsBack) :
    Envelope.parse r.encode = .ok (.single r.onWire) := by
  have start : ∃ t, Json.skipBlank r.encode = 0x7B :: t := ⟨_, Json.skipBlank_cons _ (by decide)⟩
  obtain ⟨t, start⟩ := start
  have noArray := Json.parse_ne_arr start (by decide)
  rw [Envelope.parse, decode_encode_request fits numbers]
  split
  · rename_i items found
    exact absurd found (noArray items)
  · rfl

/-! ### What has been read -/

/-- The values of a draft can nest in a request, and none of them is null. -/
def Draft.Settled (d : Draft) : Prop :=
  ∀ v, d.id = some (some v) ∨ d.params = some (some v) → Json.Fits 126 v ∧ v ≠ .null

theorem ne_null_of_optional {fuel depth : Nat} {s t : Bytes} {v : Json}
    (read : Json.optional (Json.value fuel depth) s = .ok (some v, t)) : v ≠ .null := by
  rintro rfl
  unfold Json.optional at read
  split at read
  · obtain ⟨_, _, equal⟩ := Json.map_eq_ok read
    simp at equal
  · rename_i other
    split at read
    · rename_i found
      obtain ⟨equal, -⟩ := Prod.mk.inj (Except.ok.inj read)
      obtain rfl := Option.some.inj equal
      obtain ⟨b, u, start, rfl⟩ := Json.begins_of_value found
      exact other u (by simpa using start)
    · simp at read

theorem fields_keep_settled : Json.Keeps fields 126 Draft.Settled := by
  intro f member fuel st s next r start read
  simp only [fields, List.mem_cons, List.not_mem_nil, or_false] at member
  rcases member with rfl | rfl | rfl | rfl | rfl
  all_goals
    obtain ⟨⟨x, t⟩, found, equal⟩ := Json.map_eq_ok read
    obtain ⟨rfl, -⟩ := Prod.mk.inj equal
  · exact start
  · rintro v (present | present)
    · obtain rfl := Option.some.inj present
      exact ⟨Json.fits_of_optional found rfl, ne_null_of_optional found⟩
    · exact start v (.inr present)
  · exact start
  · rintro v (present | present)
    · exact start v (.inl present)
    · obtain rfl := Option.some.inj present
      exact ⟨Json.fits_of_optional found rfl, ne_null_of_optional found⟩
  · exact start

/-- What has been read has no null to lose, and can nest in a request. -/
theorem settled_of_decode {s : Bytes} {r : Request} (read : decode s = .ok r) :
    r.Fits ∧ r.onWire = r := by
  unfold decode at read
  split at read
  · rename_i st t found
    have settled : st.Settled :=
      Json.record_keeps fields_keep_settled (by rintro v (h | h) <;> simp at h) found
    have id_settled (v : Json) (there : st.id.join = some v) : Json.Fits 126 v ∧ v ≠ .null :=
      settled v (.inl (Option.join_eq_some_iff.mp there))
    have params_settled (v : Json) (there : st.params.join = some v) :
        Json.Fits 126 v ∧ v ≠ .null :=
      settled v (.inr (Option.join_eq_some_iff.mp there))
    unfold Json.finish at read
    split at read
    · obtain rfl := Except.ok.inj read
      refine
        ⟨⟨fun v there => (id_settled v there).1, fun v there => (params_settled v there).1⟩, ?_⟩
      have kept {x : Option Json} (some_value : ∀ v, x = some v → v ≠ .null) :
          x.filter (· ≠ .null) = x := by
        cases x with
        | none => rfl
        | some v => simp [some_value v rfl]
      simp only [onWire, Draft.toRequest, kept fun v there => (id_settled v there).2,
        kept fun v there => (params_settled v there).2]
    · simp [Json.failOn] at read
  · simp at read

/-- A body that is a single request has been read as one. -/
theorem decode_of_parse {body : Bytes} {r : Request}
    (read : Envelope.parse body = .ok (.single r)) : decode body = .ok r := by
  unfold Envelope.parse at read
  split at read
  · cases read
  · obtain ⟨other, found, equal⟩ := Json.map_eq_ok read
    obtain rfl := Envelope.single.inj equal
    exact found

/-- Every request whose id and params nest no deeper than a request can hold is read back from its
text as a single request, but that a null id and null params are absent then; and a request that has
been read from a body is read back from its own text as it is, with or without an id as before. -/
theorem single_of_encode :
    (∀ r : Request, r.Fits → (∀ n ∈ r.numbers, n.ReadsBack) →
      Envelope.parse r.encode = .ok (.single { r with
        id := r.id.filter (· ≠ .null), params := r.params.filter (· ≠ .null) })) ∧
    ∀ (body : Bytes) (r : Request), Envelope.parse body = .ok (.single r) →
      (∀ n ∈ r.numbers, n.ReadsBack) →
      ∃ again, Envelope.parse r.encode = .ok (.single again) ∧ again = r ∧
        again.isNotification = r.isNotification := by
  refine ⟨fun r fits numbers => parse_encode_eq fits numbers, fun body r read numbers => ?_⟩
  obtain ⟨fits, settled⟩ := settled_of_decode (decode_of_parse read)
  refine ⟨r.onWire, parse_encode_eq fits numbers, settled, ?_⟩
  rw [settled]

theorem single_of_encode_of_null_id :
    let r : Request := {
      id := some .null, method := "a.b", contextVersion := "v1"
      params := some (.arr [.num (.int 1 (by decide)), .obj [("k", .null)]]) }
    let read : Request := { r with id := none }
    Envelope.parse r.encode = .ok (.single read) ∧
      ∃ again, Envelope.parse read.encode = .ok (.single again) ∧ again = read ∧
        again.isNotification = read.isNotification := by
  intro r read
  have fits : r.Fits := by
    refine ⟨fun v there => ?_, fun v there => ?_⟩
    · obtain rfl := Option.some.inj there
      exact Json.fits_null
    · obtain rfl := Option.some.inj there
      exact ⟨by simp [Json.Ordered, Json.OrderedItems, Json.OrderedMembers], by decide⟩
  have numbers : ∀ n ∈ r.numbers, n.ReadsBack := by
    intro n member
    obtain rfl : n = .int 1 (by decide) := by
      simpa [r, Request.numbers, Json.numbers, Json.numbersIn, Json.numbersOf] using member
    exact Json.readsBack_int _
  have first : Envelope.parse r.encode = .ok (.single read) := single_of_encode.1 r fits numbers
  exact ⟨first, single_of_encode.2 r.encode read first numbers⟩

end Request

end ScriptGate.Rpc
