import ScriptGate.Proofs.Json.Records
import ScriptGate.Rpc.Response

/-!
# Responses read back

A response is read back from its text, but for one thing: the data of an error that is null arrives
as none. The checksum of such an error covers a member that the reader does not have any more, so
`verify_onWire_iff` says when a stamp still holds where it arrives.
-/

namespace ScriptGate.Rpc

open Json (Number Reads Written)

/-! ### What arrives -/

/-- An error as it arrives: null data does not. -/
def Error.onWire (e : Error) : Error := { e with data := e.data.filter (· ≠ .null) }

/-- A response as it arrives. -/
def Response.onWire (r : Response) : Response := { r with error := r.error.map Error.onWire }

/-- Whether the error of a response has data that is null. -/
def Response.hasNullData (r : Response) : Bool := r.error.any (·.data = some .null)

def Response.numbers (r : Response) : List Number :=
  r.id.numbers ++ (r.result.elim [] Json.numbers ++
    r.error.elim [] fun e => e.data.elim [] Json.numbers)

/-- The values of a response can nest inside it. -/
structure Response.Fits (r : Response) : Prop where
  id : Json.Fits 126 r.id
  result : ∀ v, r.result = some v → Json.Fits 126 v
  data : ∀ e v, r.error = some e → e.data = some v → Json.Fits 125 v

namespace Response

theorem fits_success {id value : Json} (idFits : Json.Fits 126 id) (fits : Json.Fits 126 value) :
    (success id value).Fits where
  id := idFits
  result := fun v found => by
    obtain rfl : value = v := Option.some.inj found
    exact fits
  data := fun e v found => by simp [success] at found

theorem fits_failure {id : Json} {e : Error} (idFits : Json.Fits 126 id)
    (fits : ∀ v, e.data = some v → Json.Fits 125 v) : (failure id e).Fits where
  id := idFits
  result := fun v found => by simp [failure] at found
  data := fun other v found data => by
    obtain rfl : e = other := Option.some.inj found
    exact fits v data

theorem fits_refusal {id : Json} {e : Error} (idFits : Json.Fits 126 id)
    (plain : e.data = none) : (failure id e).Fits :=
  fits_failure idFits fun v found => by simp [plain] at found

theorem Fits.stamp {r : Response} (fits : r.Fits) (node salt : String)
    (newSession : Option String) : (r.stamp node salt newSession).Fits :=
  ⟨fits.id, fits.result, fits.data⟩

end Response

variable {fuel depth : Nat} {rest : Bytes}

/-! ### Errors -/

theorem Error.isWord (e : Error) : Json.IsWord e.code := by
  have low : (-2147483648 : Int) ≤ e.code := e.isCode.1
  have high : e.code ≤ (2147483647 : Int) := e.isCode.2
  simp only [Json.IsWord, Word.least64, Word.greatestUnsigned64]
  omega

theorem Error.read_encode {e : Error} (fits : ∀ v, e.data = some v → Json.Fits depth v)
    (numbers : ∀ v, e.data = some v → ∀ n ∈ v.numbers, n.ReadsBack)
    (enough : e.encode.length ≤ fuel) :
    Error.read fuel (depth + 1) (e.encode ++ rest) = .ok (e.onWire, rest) := by
  have written : Written Error.fields depth {}
      ([("code", (Json.int e.code).encode), ("message", Json.quoted e.message)] ++
        (e.data.map fun d => ("data", d.encode)).toList)
      { code := some ⟨e.code, e.isCode⟩, message := some e.message,
        data := e.data.map fun d => if d = .null then none else some d } := by
    let coded : Draft := { code := some ⟨e.code, e.isCode⟩ }
    let worded : Draft := { coded with message := some e.message }
    refine Written.append (m := worded)
      (.cons coded rfl rfl (fun fuel rest _ stops => ?_)
        (.cons worded rfl rfl (fun fuel rest _ _ => ?_) (.nil _)))
      (.optional (fun absent => ?_) rfl rfl fun v present fuel rest enough stops => ?_)
    · simp only [Json.integerValue_encode e.isWord e.isCode.1 e.isCode.2 stops, e.isCode, dif_pos,
        coded]
    · simp only [Json.stringValue_quoted]
      rfl
    · simp [absent, worded, coded]
    · have reads := Json.reads_of_fits (fits v present) (numbers v present)
      simp only [Json.optional_encode reads (numbers v present) enough stops, present]
      rfl
  have read : Json.record Error.fields fuel (depth + 1) {} (e.encode ++ rest) = .ok (_, rest) :=
    Json.record_encodeRecord written enough
  rw [Error.read, read]
  cases present : e.data with
  | none => simp [onWire, present]
  | some v => by_cases null : v = .null <;> simp [onWire, present, null, Option.filter]

/-! ### Stamps -/

theorem Stamp.read_encode (d : Stamp) (enough : d.encode.length ≤ fuel) :
    Stamp.read fuel (depth + 1) (d.encode ++ rest) = .ok (d, rest) := by
  have written : Written Stamp.fields depth {}
      ([("responsible-node", Json.quoted d.responsibleNode), ("salt", Json.quoted d.salt),
        ("checksum", Json.quoted d.checksum)] ++
        (d.newSession.map fun s => ("new-session-uuid", Json.quoted s)).toList)
      { responsibleNode := some d.responsibleNode, salt := some d.salt,
        checksum := some d.checksum, newSession := d.newSession.map some } := by
    let placed : Draft := { responsibleNode := some d.responsibleNode }
    let salted : Draft := { placed with salt := some d.salt }
    let summed : Draft := { salted with checksum := some d.checksum }
    refine Written.append (m := summed)
      (.cons placed rfl rfl (fun fuel rest _ _ => ?_)
        (.cons salted rfl rfl (fun fuel rest _ _ => ?_)
          (.cons summed rfl rfl (fun fuel rest _ _ => ?_) (.nil _))))
      (.optional (fun absent => ?_) rfl rfl fun s present fuel rest _ _ => ?_)
    · simp only [Json.stringValue_quoted]
      rfl
    · simp only [Json.stringValue_quoted]
      rfl
    · simp only [Json.stringValue_quoted]
      rfl
    · simp [absent, summed, salted, placed]
    · simp only [Json.optional_quoted, present]
      rfl
  have read : Json.record Stamp.fields fuel (depth + 1) {} (d.encode ++ rest) = .ok (_, rest) :=
    Json.record_encodeRecord written enough
  rw [Stamp.read, read]
  rcases d with ⟨node, salt, sum, _ | newSession⟩ <;> rfl

/-! ### Responses -/

namespace Response

/-- The members of a response lead a reader to what arrives of it. -/
theorem written {r : Response} (fits : r.Fits) (numbers : ∀ n ∈ r.numbers, n.ReadsBack) :
    Written fields 126 {}
      ([("jsonrpc", Json.quoted r.jsonrpc), ("id", r.id.encode)] ++
        (r.result.map fun v => ("result", v.encode)).toList ++
        (r.error.map fun e => ("error", e.encode)).toList ++
        (r.data.map fun d => ("data", d.encode)).toList)
      { jsonrpc := some r.jsonrpc, id := some r.id, result := r.result,
        error := r.error.map (some ∘ Error.onWire), data := r.data.map some } := by
  let tagged : Draft := { jsonrpc := some r.jsonrpc }
  let named : Draft := { tagged with id := some r.id }
  let answered : Draft := { named with result := r.result }
  let failed : Draft := { answered with error := r.error.map (some ∘ Error.onWire) }
  have id_numbers : ∀ n ∈ r.id.numbers, n.ReadsBack := fun n member =>
    numbers n (List.mem_append_left _ member)
  refine Written.append (m := failed) (.append (m := answered) (.append (m := named)
    (.cons tagged rfl rfl (fun fuel rest _ _ => ?_)
      (.cons named rfl rfl (fun fuel rest enough stops => ?_) (.nil _)))
    (.optional (fun absent => ?_) rfl rfl fun v present fuel rest enough stops => ?_))
    (.optional (fun absent => ?_) rfl rfl fun e present fuel rest enough _ => ?_))
    (.optional (fun absent => ?_) rfl rfl fun d present fuel rest enough _ => ?_)
  · simp only [Json.stringValue_quoted]
    rfl
  · simp only [Json.reads_of_fits fits.id id_numbers fuel rest enough stops]
    rfl
  · simp [absent, answered, named, tagged]
  · have inside : ∀ n ∈ v.numbers, n.ReadsBack := fun n member =>
      numbers n (by simp [Response.numbers, present, member])
    simp only [Json.reads_of_fits (fits.result v present) inside fuel rest enough stops, answered,
      present]
    rfl
  · simp [absent, failed, answered, named, tagged]
  · have inside (v : Json) (has : e.data = some v) : ∀ n ∈ v.numbers, n.ReadsBack :=
      fun n member => numbers n (by simp [Response.numbers, present, has, member])
    have read : Error.read fuel 126 (e.encode ++ rest) = .ok (e.onWire, rest) :=
      Error.read_encode (fun v => fits.data e v present) inside enough
    have some_read : Json.optional (Error.read fuel 126) (e.encode ++ rest) =
        .ok (some e.onWire, rest) := Json.optional_some (b := 0x7B) (by decide) (by decide) read
    simp only [some_read, failed, present]
    rfl
  · simp [absent, failed, answered, named, tagged]
  · have read : Stamp.read fuel 126 (d.encode ++ rest) = .ok (d, rest) :=
      Stamp.read_encode d enough
    have some_read : Json.optional (Stamp.read fuel 126) (d.encode ++ rest) =
        .ok (some d, rest) := Json.optional_some (b := 0x7B) (by decide) (by decide) read
    simp only [some_read, present]
    rfl

/-- A response whose values fit is read back, but for null data of its error. -/
theorem decode_encode {r : Response} (fits : r.Fits) (numbers : ∀ n ∈ r.numbers, n.ReadsBack) :
    decode r.encode = .ok r.onWire := by
  have enough : r.encode.length ≤ Json.fuelFor r.encode := by simp only [Json.fuelFor]; omega
  have read : Json.record fields (Json.fuelFor r.encode) Json.maxDepth {} (r.encode ++ []) =
      .ok (_, []) := Json.record_encodeRecord (written fits numbers) enough
  rw [List.append_nil] at read
  rw [decode, read]
  obtain ⟨jsonrpc, id, result, error, data⟩ := r
  cases error <;> cases data <;> rfl

/-! ### Stamps that hold where they arrive -/

/-- A stamp holds where it is made. -/
theorem verify_stamp (r : Response) (node salt : String) (newSession : Option String) :
    (r.stamp node salt newSession).verify = true := by
  show (checksum r.payload == checksum r.payload) = true
  exact beq_self_eq_true _

theorem onWire_eq {r : Response} (present : r.hasNullData = false) : r.onWire = r := by
  obtain ⟨jsonrpc, id, result, error, data⟩ := r
  cases error with
  | none => rfl
  | some e =>
    obtain ⟨code, message, _ | v, isCode⟩ := e
    · rfl
    · have some_data : v ≠ .null := by simpa [hasNullData] using present
      simp [onWire, Error.onWire, some_data]

/-- A stamp holds where it arrives exactly if the error has no null data, or if leaving the data out
does not change the checksum. -/
theorem verify_onWire_iff (r : Response) (node salt : String) (newSession : Option String) :
    (r.stamp node salt newSession).onWire.verify = true ↔
      (r.hasNullData = true → checksum r.onWire.payload = checksum r.payload) := by
  have shape : (r.stamp node salt newSession).onWire =
      { r.onWire with data := some ⟨node, salt, checksum r.payload, newSession⟩ } := rfl
  have covered : Response.payload { r.onWire with
      data := some ⟨node, salt, checksum r.payload, newSession⟩ } = r.onWire.payload := rfl
  rw [shape, verify, covered, beq_iff_eq]
  cases null : r.hasNullData with
  | true => simp [eq_comm]
  | false => simp [onWire_eq null]

end Response

end ScriptGate.Rpc
