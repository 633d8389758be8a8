import ScriptGate.Proofs.Json.Parser
import ScriptGate.Rpc.Envelope

/-!
# The ids of requests fit

However a request is written, its id comes out of a text of bounded depth and can nest in a
response.
-/

namespace ScriptGate.Rpc

/-- The id of a request, if it has one, can nest in a response. -/
def Request.IdFits (r : Request) : Prop := ∀ v, r.id = some v → Json.Fits 126 v

theorem Request.IdFits.orNull {r : Request} (fits : r.IdFits) :
    Json.Fits 126 (r.id.getD .null) := by
  cases present : r.id with
  | none => exact Json.fits_null
  | some v => exact fits v present

namespace Request

def Draft.IdFits (d : Draft) : Prop := ∀ v, d.id = some (some v) → Json.Fits 126 v

theorem fields_keep_idFits : Json.Keeps fields 126 Draft.IdFits := by
  intro f member fuel st s next r start read
  simp only [fields, List.mem_cons, List.not_mem_nil, or_false] at member
  rcases member with rfl | rfl | rfl | rfl | rfl
  all_goals
    obtain ⟨⟨x, t⟩, found, equal⟩ := Json.map_eq_ok read
    obtain ⟨rfl, -⟩ := Prod.mk.inj equal
  · exact start
  · intro v present
    exact Json.fits_of_optional found (Option.some.inj present)
  · exact start
  · exact start
  · exact start

theorem idFits_of_decode {s : Bytes} {r : Request} (read : decode s = .ok r) : r.IdFits := by
  unfold decode at read
  split at read
  · rename_i st t found
    have kept : st.IdFits :=
      Json.record_keeps fields_keep_idFits (fun v present => absurd present (by simp)) found
    unfold Json.finish at read
    split at read
    · obtain rfl := Except.ok.inj read
      intro v present
      refine kept v ?_
      cases has : st.id with
      | none => simp [Draft.toRequest, has] at present
      | some id => simpa [Draft.toRequest, has] using present
    · simp [Json.failOn] at read
  · simp at read

theorem idFits_of_ofJson? {j : Json} {r : Request} (fits : Json.Fits 126 j)
    (read : ofJson? j = some r) : r.IdFits := by
  cases j with
  | obj members =>
    intro v present
    simp only [ofJson?, Option.bind_eq_bind, Option.bind_eq_some_iff, Option.pure_def,
      Option.some.injEq] at read
    obtain ⟨_, _, _, _, _, _, rfl⟩ := read
    have found : Json.find? "id" members = some v := by
      simp only [valueMember] at present
      split at present
      · simp at present
      · simp at present
      · simp_all
    exact (Json.fits_of_find? (Json.fits_obj_iff.mp fits) found).mono (by decide)
  | null | bool | num | str | arr => simp [ofJson?] at read

end Request

def Envelope.requests : Envelope → List Request
  | .single r => [r]
  | .batch slots => slots.filterMap id

theorem Envelope.idFits_of_parse {body : Bytes} {envelope : Envelope}
    (read : Envelope.parse body = .ok envelope) : ∀ r ∈ envelope.requests, r.IdFits := by
  unfold Envelope.parse at read
  split at read
  · rename_i items found
    obtain rfl := Except.ok.inj read
    intro r member
    simp only [requests, List.mem_filterMap, List.mem_map, id] at member
    obtain ⟨_, ⟨x, inside, rfl⟩, slot⟩ := member
    exact Request.idFits_of_ofJson? (Json.fits_arr_iff.mp (Json.fits_of_parse found) x inside) slot
  · obtain ⟨r, found, rfl⟩ := Json.map_eq_ok read
    intro other member
    obtain rfl : other = r := by simpa [requests] using member
    exact Request.idFits_of_decode found

end ScriptGate.Rpc
