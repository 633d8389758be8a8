import ScriptGate.Proofs.Json.Injective
import ScriptGate.Proofs.Rpc.Request
import ScriptGate.Proofs.Rpc.Response

/-!
# Responses read back and written again

The text of a response is the text of one value, its `document`, so how deep the text nests says
whether the values of the response fit. What has been read as a response fits, and its error has no
null data, in whichever of the two forms it was written: reading it back changes nothing.
-/

namespace ScriptGate

namespace Json

/-- A record is written like an object whose members stand in that order. -/
theorem encode_obj_eq_encodeRecord (ms : List (String × Json)) :
    (Json.obj ms).encode = encodeRecord (ms.map fun m => (m.1, m.2.encode)) := by
  cases ms with
  | nil => rfl
  | cons m rest =>
    have record := encodeRecord_cons (m.1, m.2.encode) (rest.map fun m => (m.1, m.2.encode)) []
    rw [List.append_nil] at record
    have tail : recordTail (rest.map fun m => (m.1, m.2.encode)) = membersTail rest := by
      simp [recordTail, membersTail, List.flatMap_map]
    rw [encode, encodeMembers_cons, List.map_cons, record, tail]
    simp

theorem depth_lt_of_mem {ms : List (String × Json)} {m : String × Json} (member : m ∈ ms) :
    m.2.depth < (Json.obj ms).depth := by
  have inside : m.2.depth ≤ depthMembers ms := depthMembers_le_iff.mp (Nat.le_refl _) m member
  rw [depth]
  omega

/-- What is read where null may stand has been read as it would be elsewhere. -/
theorem read_of_optional {α : Type} {read : Bytes → Parsed α} {s t : Bytes} {x : α}
    (found : optional read s = .ok (some x, t)) : ∃ u, read u = .ok (x, t) := by
  unfold optional at found
  split at found
  · obtain ⟨_, _, equal⟩ := map_eq_ok found
    simp at equal
  · rename_i u _
    split at found
    · rename_i y v there
      obtain ⟨value, rfl⟩ := Prod.mk.inj (Except.ok.inj found)
      obtain rfl := Option.some.inj value
      exact ⟨_, there⟩
    · simp at found

end Json

namespace Rpc

open Json (Number)

/-! ### The value that a text writes -/

def Error.document (e : Error) : Json :=
  .obj ([("code", .int e.code), ("message", .str e.message)] ++ (e.data.map (("data", ·))).toList)

def Stamp.document (d : Stamp) : Json :=
  .obj ([("responsible-node", .str d.responsibleNode), ("salt", .str d.salt),
    ("checksum", .str d.checksum)] ++
    (d.newSession.map fun s => ("new-session-uuid", .str s)).toList)

/-- The members of a response in the order in which its text has them. -/
def Response.members (r : Response) : List (String × Json) :=
  [("jsonrpc", .str r.jsonrpc), ("id", r.id)] ++ (r.result.map (("result", ·))).toList ++
    (r.error.map fun e => ("error", e.document)).toList ++
    (r.data.map fun d => ("data", d.document)).toList

def Response.document (r : Response) : Json := .obj r.members

theorem Error.encode_document (e : Error) : e.document.encode = e.encode := by
  rw [document, Json.encode_obj_eq_encodeRecord]
  cases data : e.data <;> simp [encode, data, Json.encode]

theorem Stamp.encode_document (d : Stamp) : d.document.encode = d.encode := by
  rw [document, Json.encode_obj_eq_encodeRecord]
  cases session : d.newSession <;> simp [encode, session, Json.encode]

namespace Response

theorem encode_document (r : Response) : r.document.encode = r.encode := by
  rw [document, Json.encode_obj_eq_encodeRecord]
  obtain ⟨jsonrpc, id, result, error, data⟩ := r
  cases result <;> cases error <;> cases data <;>
    simp [members, encode, Json.encode, Error.encode_document, Stamp.encode_document]

def values (r : Response) : List Json :=
  r.id :: r.result.toList ++ (r.error.bind (·.data)).toList

/-- A response whose text nests no deeper than a reader goes fits. -/
theorem fits_of_document {r : Response} (ordered : ∀ v ∈ r.values, v.Ordered)
    (nests : r.document.depth ≤ Json.maxDepth) : r.Fits := by
  have limit : Json.maxDepth = 127 := rfl
  have inside (name : String) {v : Json} (member : (name, v) ∈ r.members) : v.depth ≤ 126 := by
    have below : v.depth < r.document.depth := Json.depth_lt_of_mem member
    omega
  refine ⟨?_, fun v present => ?_, fun e v present has => ?_⟩
  · exact ⟨ordered r.id (by simp [values]), inside "id" (by simp [members])⟩
  · exact ⟨ordered v (by simp [values, present]), inside "result" (by simp [members, present])⟩
  · have error_depth : e.document.depth ≤ 126 := inside "error" (by simp [members, present])
    have below : v.depth < e.document.depth :=
      Json.depth_lt_of_mem (m := ("data", v)) (by simp [has])
    exact ⟨ordered v (by simp [values, present, has]), by omega⟩

end Response

/-! ### What has been read -/

/-- The data of an error can nest in it, and is not null. -/
def Error.Settled (depth : Nat) (e : Error) : Prop :=
  ∀ v, e.data = some v → Json.Fits depth v ∧ v ≠ .null

theorem Error.Settled.onWire_eq {depth : Nat} {e : Error} (settled : e.Settled depth) :
    e.onWire = e := by
  have kept : e.data.filter (· ≠ .null) = e.data := by
    cases present : e.data with
    | none => rfl
    | some v => simp [(settled v present).2]
  rw [Error.onWire, kept]

namespace Error

variable {fuel depth : Nat} {s t : Bytes}

theorem fields_keep_data : Json.Keeps fields depth fun d =>
    ∀ v, d.data = some (some v) → Json.Fits depth v ∧ v ≠ .null := by
  intro f member fuel st s next r start read
  simp only [fields, List.mem_cons, List.not_mem_nil, or_false] at member
  rcases member with rfl | rfl | rfl
  · simp only at read
    split at read
    · split at read
      · obtain ⟨rfl, -⟩ := Prod.mk.inj (Except.ok.inj read)
        exact start
      · simp [Json.fail] at read
    · simp at read
  · obtain ⟨_, _, equal⟩ := Json.map_eq_ok read
    obtain ⟨rfl, -⟩ := Prod.mk.inj equal
    exact start
  · obtain ⟨⟨x, t⟩, found, equal⟩ := Json.map_eq_ok read
    obtain ⟨rfl, -⟩ := Prod.mk.inj equal
    intro v present
    obtain rfl := Option.some.inj present
    exact ⟨Json.fits_of_optional found rfl, Request.ne_null_of_optional found⟩

theorem settled_of_read {e : Error} (found : read fuel (depth + 1) s = .ok (e, t)) :
    e.Settled depth := by
  unfold read at found
  split at found
  · simp at found
  · rename_i st u members
    have kept := Json.record_keeps fields_keep_data (by simp) members
    split at found
    · obtain ⟨rfl, -⟩ := Prod.mk.inj (Except.ok.inj found)
      intro v present
      exact kept v (Option.join_eq_some_iff.mp present)
    · simp [Json.fail] at found

end Error

namespace Response

structure Draft.Settled (d : Draft) : Prop where
  id : ∀ v, d.id = some v → Json.Fits 126 v
  result : ∀ v, d.result = some v → Json.Fits 126 v
  error : ∀ e, d.error = some (some e) → e.Settled 125

theorem fields_keep_settled : Json.Keeps fields 126 Draft.Settled := by
  intro f member fuel st s next r start read
  simp only [fields, List.mem_cons, List.not_mem_nil, or_false] at member
  rcases member with rfl | rfl | rfl | rfl | rfl
  all_goals
    obtain ⟨⟨x, t⟩, found, equal⟩ := Json.map_eq_ok read
    obtain ⟨rfl, -⟩ := Prod.mk.inj equal
  · exact ⟨start.id, start.result, start.error⟩
  · refine ⟨fun v present => ?_, start.result, start.error⟩
    obtain rfl := Option.some.inj present
    exact Json.fits_of_value found
  · refine ⟨start.id, fun v present => ?_, start.error⟩
    obtain rfl := Option.some.inj present
    exact Json.fits_of_value found
  · refine ⟨start.id, start.result, fun e present => ?_⟩
    obtain rfl := Option.some.inj present
    obtain ⟨u, inside⟩ := Json.read_of_optional found
    exact Error.settled_of_read inside
  · exact ⟨start.id, start.result, start.error⟩

/-- What has been read as a response fits in one, and has no null to lose. -/
theorem settled_of_decode {text : Bytes} {r : Response} (read : decode text = .ok r) :
    r.Fits ∧ r.onWire = r := by
  unfold decode at read
  split at read
  · simp at read
  rename_i st t members
  split at read
  · rename_i jsonrpc _
    have settled : st.Settled :=
      Json.record_keeps fields_keep_settled ⟨by simp, by simp, by simp⟩ members
    have error_settled (e : Error) (present : st.error.join = some e) : e.Settled 125 :=
      settled.error e (Option.join_eq_some_iff.mp present)
    unfold Json.finish at read
    split at read
    · obtain rfl := Except.ok.inj read
      have data_fits (e : Error) (v : Json) (present : st.error.join = some e)
          (has : e.data = some v) : Json.Fits 125 v := (error_settled e present v has).1
      refine ⟨⟨?_, settled.result, data_fits⟩, ?_⟩
      · show Json.Fits 126 (st.id.getD .null)
        cases present : st.id with
        | none => exact Json.fits_null
        | some v => exact settled.id v present
      · have kept : st.error.join.map Error.onWire = st.error.join := by
          cases present : st.error.join with
          | none => rfl
          | some e => rw [Option.map_some, (error_settled e present).onWire_eq]
        rw [onWire, kept]
    · simp [Json.failOn] at read
  · simp [Json.fail] at read

theorem readsBack_of_floats {ns : List Number}
    (floats : ∀ x finite, Number.float x finite ∈ ns → (Number.float x finite).ReadsBack) :
    ∀ n ∈ ns, n.ReadsBack := by
  intro n member
  cases n with
  | int i word => exact Json.readsBack_int word
  | float x finite => exact floats x finite member

/-- Every response whose text nests no deeper than a reader goes is read back from it as it is, but
that null data of its error is absent then. Whatever has been read as a response, from an object or
from an array, is written again as a text that is read as the same response. -/
theorem decode_encode_or_settled :
    (∀ (r : Response) (document : Json), document.encode = r.encode →
      document.depth ≤ Json.maxDepth → (∀ v ∈ r.values, v.Ordered) →
      (∀ x finite, Number.float x finite ∈ r.numbers → (Number.float x finite).ReadsBack) →
      decode r.encode = .ok { r with
        error := r.error.map fun e => { e with data := e.data.filter (· ≠ .null) } }) ∧
    ∀ (text : Bytes) (r : Response), decode text = .ok r →
      (∀ x finite, Number.float x finite ∈ r.numbers → (Number.float x finite).ReadsBack) →
      decode r.encode = .ok r := by
  constructor
  · intro r document written nests ordered floats
    obtain rfl : document = r.document :=
      Json.encode_injective (written.trans r.encode_document.symm)
    exact decode_encode (fits_of_document ordered nests) (readsBack_of_floats floats)
  · intro text r read floats
    obtain ⟨fits, settled⟩ := settled_of_decode read
    rw [decode_encode fits (readsBack_of_floats floats), settled]

/-- A result that is null stays, and null data beside it goes; an array that has a half as its id is
read, written and read again. -/
theorem decode_encode_or_settled_of_null :
    let stamp : Stamp := ⟨"n", "s", "c", some "new"⟩
    let error : Error := .withData .invalidParams .null
    let r : Response := { result := some .null, error := some error, data := some stamp }
    let half : Json := .num (.float ⟨0x3FE0000000000000⟩ (by decide))
    let listed : Response := { id := half, result := some .null, data := some stamp }
    decode r.encode = .ok { r with error := some .invalidParams } ∧
      decode (Bytes.ofString "[\"2.0\",0.5,null,null,[\"n\",\"s\",\"c\",\"new\"]]") =
        .ok listed ∧
      decode listed.encode = .ok listed := by
  intro stamp error r half listed
  have text : decode (Bytes.ofString "[\"2.0\",0.5,null,null,[\"n\",\"s\",\"c\",\"new\"]]") =
      .ok listed := by decide +kernel
  have ordered : ∀ v ∈ r.values, v.Ordered := by
    intro v member
    obtain rfl : v = .null := by simpa [r, error, values, Error.withData] using member
    trivial
  refine ⟨?_, text, ?_⟩
  · exact decode_encode_or_settled.1 r r.document r.encode_document (by decide) ordered
      fun x finite member => by simp [r, error, numbers, Json.numbers, Error.withData] at member
  · refine decode_encode_or_settled.2 _ listed text fun x finite member => ?_
    have only : Number.float x finite = .float ⟨0x3FE0000000000000⟩ (by decide) := by
      simpa [listed, half, numbers, Json.numbers] using member
    rw [only]
    unfold Number.ReadsBack
    decide +kernel

end Response

end Rpc

end ScriptGate
