import ScriptGate.Proofs.Json.Forms
import ScriptGate.Proofs.Rpc.Batch

/-!
# What a body is by its text

A body is a batch where its text is an array of values, and a single request where its text is an
object that decodes as one. A request can be decoded from an array of its members too, but every
such array is an array of values, so it is a batch before that is tried.
-/

namespace ScriptGate.Rpc

namespace Request

theorem fields_valued : Json.Valued fields := by
  intro f member fuel depth st s next r read
  simp only [fields, List.mem_cons, List.not_mem_nil, or_false] at member
  rcases member with rfl | rfl | rfl | rfl | rfl
  all_goals
    obtain ⟨⟨x, t⟩, found, same⟩ := Json.map_eq_ok read
    obtain ⟨-, rfl⟩ := Prod.mk.inj same
  · exact ⟨_, Json.value_of_stringValue found fuel depth⟩
  · exact Json.value_of_optional found
  · exact ⟨_, Json.value_of_stringValue found fuel depth⟩
  · exact Json.value_of_optional found
  · exact ⟨_, Json.value_of_stringValue found fuel depth⟩

theorem decode_cases {s : Bytes} {r : Request} (read : decode s = .ok r) :
    Json.IsObjectText s ∨ ∃ vs, Json.parse s = .ok (.arr vs) := by
  unfold decode at read
  split at read
  · rename_i draft left found
    obtain ⟨blank, -⟩ := Json.finish_eq_ok_iff.mp read
    rcases Json.record_cases fields_valued found with ⟨t, start, text⟩ | ⟨vs, whole⟩
    · exact .inl ⟨t, left, Json.blanks_of_eq start, text, Json.blanks_of_eq blank⟩
    · exact .inr ⟨vs, Json.parse_eq_ok_iff.mpr ⟨left, whole, blank⟩⟩
  · simp at read

theorem ofJson?_eq_none {v : Json} (other : ¬ ∃ ms, v = .obj ms) : ofJson? v = none := by
  cases v with
  | obj ms => exact absurd ⟨ms, rfl⟩ other
  | null | bool | num | str | arr => rfl

end Request

namespace Envelope

variable {body : Bytes}

theorem parse_batch_iff {slots : List (Option Request)} :
    parse body = .ok (.batch slots) ↔
      ∃ vs, Json.parse body = .ok (.arr vs) ∧ slots = vs.map Request.ofJson? := by
  unfold parse
  split
  · rename_i items read
    rw [read]
    constructor
    · intro same
      exact ⟨items, rfl, (Envelope.batch.inj (Except.ok.inj same)).symm⟩
    · rintro ⟨vs, same, rfl⟩
      obtain rfl := Json.arr.inj (Except.ok.inj same)
      rfl
  · rename_i noArray
    constructor
    · intro single
      obtain ⟨r, -, no⟩ := Json.map_eq_ok single
      cases no
    · rintro ⟨vs, read, -⟩
      exact absurd read (noArray vs)

theorem parse_single_iff {r : Request} : parse body = .ok (.single r) ↔
    Json.IsObjectText body ∧ Request.decode body = .ok r := by
  constructor
  · intro single
    unfold parse at single
    split at single
    · cases single
    · rename_i noArray
      obtain ⟨other, read, same⟩ := Json.map_eq_ok single
      obtain rfl := Envelope.single.inj same
      exact ⟨(Request.decode_cases read).resolve_right fun ⟨vs, array⟩ => noArray vs array, read⟩
  · rintro ⟨object, read⟩
    obtain ⟨t, start⟩ := Json.skipBlank_of_isObjectText object
    have noArray := Json.parse_ne_arr start (by decide)
    unfold parse
    split
    · rename_i items array
      exact absurd array (noArray items)
    · rw [read]
      rfl

def IsElement (t : Bytes) (slot : Option Request) : Prop :=
  ∃ v, Json.IsText 126 t v ∧ slot = Request.ofJson? v

theorem forall₂_isElement_iff {texts : List Bytes} {slots : List (Option Request)} :
    List.Forall₂ IsElement texts slots ↔
      ∃ vs, List.Forall₂ (Json.IsText 126) texts vs ∧ slots = vs.map Request.ofJson? := by
  constructor
  · intro elements
    induction elements with
    | nil => exact ⟨[], .nil, rfl⟩
    | cons element _ ih =>
      obtain ⟨v, text, rfl⟩ := element
      obtain ⟨vs, others, rfl⟩ := ih
      exact ⟨v :: vs, .cons text others, rfl⟩
  · rintro ⟨vs, texts_read, rfl⟩
    exact List.forall₂_map_right_iff.mpr (texts_read.imp fun _ v text => ⟨v, text, rfl⟩)

theorem parse_batch_iff_texts {slots : List (Option Request)} :
    parse body = .ok (.batch slots) ↔
      ∃ texts, Json.IsArrayText texts body ∧ List.Forall₂ IsElement texts slots := by
  rw [parse_batch_iff]
  constructor
  · rintro ⟨vs, read, rfl⟩
    obtain ⟨texts, array, elements⟩ := Json.parse_arr_iff.mp read
    exact ⟨texts, array, forall₂_isElement_iff.mpr ⟨vs, elements, rfl⟩⟩
  · rintro ⟨texts, array, elements⟩
    obtain ⟨vs, values, rfl⟩ := forall₂_isElement_iff.mp elements
    exact ⟨vs, Json.parse_arr_iff.mpr ⟨texts, array, values⟩, rfl⟩

theorem isBatch_iff : (∃ slots, parse body = .ok (.batch slots)) ↔
    ∃ texts, Json.IsArrayText texts body ∧ ∀ t ∈ texts, ∃ v, Json.IsText 126 t v := by
  constructor
  · rintro ⟨slots, read⟩
    obtain ⟨texts, array, elements⟩ := parse_batch_iff_texts.mp read
    have readable : List.Forall₂ (fun t slot => (∃ v, Json.IsText 126 t v) ∧ IsElement t slot)
        texts slots := elements.imp fun t slot element =>
      have ⟨v, text, _⟩ := element
      ⟨⟨v, text⟩, element⟩
    exact ⟨texts, array, ((List.forall₂_and_left _ _).mp readable).1⟩
  · rintro ⟨texts, array, each⟩
    obtain ⟨vs, elements⟩ := Request.forall₂_exists each
    exact ⟨_, parse_batch_iff_texts.mpr ⟨texts, array, forall₂_isElement_iff.mpr ⟨vs, elements, rfl⟩⟩⟩

/-- What a body comes to by its text. A batch is an array of values that can be read, and a single
request is an object; what decodes as a request but is no object is a batch all the same, and an
element that is no object makes no request. -/
theorem parse_by_text (body : Bytes) :
    (∀ slots, parse body = .ok (.batch slots) ↔
      ∃ texts, Json.IsArrayText texts body ∧ List.Forall₂ IsElement texts slots) ∧
    (∀ r, parse body = .ok (.single r) ↔
      Json.IsObjectText body ∧ Request.decode body = .ok r) ∧
    ((∃ e, parse body = .error e) ↔
      (¬ ∃ texts, Json.IsArrayText texts body ∧ ∀ t ∈ texts, ∃ v, Json.IsText 126 t v) ∧
      ¬ (Json.IsObjectText body ∧ ∃ r, Request.decode body = .ok r)) ∧
    (∀ r, Request.decode body = .ok r → ¬ Json.IsObjectText body →
      ∃ slots, parse body = .ok (.batch slots)) ∧
    ∀ t slot, IsElement t slot → ¬ Json.IsObjectText t → slot = none := by
  refine ⟨fun slots => parse_batch_iff_texts, fun r => parse_single_iff, ?_, ?_, ?_⟩
  · rw [← isBatch_iff]
    constructor
    · rintro ⟨e, failed⟩
      refine ⟨?_, ?_⟩
      · rintro ⟨slots, batch⟩
        rw [failed] at batch
        cases batch
      · rintro ⟨object, r, read⟩
        have single := parse_single_iff.mpr ⟨object, read⟩
        rw [failed] at single
        cases single
    · rintro ⟨noBatch, noSingle⟩
      cases parsed : parse body with
      | error e => exact ⟨e, rfl⟩
      | ok envelope =>
        cases envelope with
        | batch slots => exact absurd ⟨slots, parsed⟩ noBatch
        | single r =>
          obtain ⟨object, read⟩ := parse_single_iff.mp parsed
          exact absurd ⟨object, r, read⟩ noSingle
  · intro r read noObject
    obtain ⟨vs, array⟩ := (Request.decode_cases read).resolve_left noObject
    exact ⟨_, parse_batch_iff.mpr ⟨vs, array, rfl⟩⟩
  · rintro t slot ⟨v, text, rfl⟩ noObject
    exact Request.ofJson?_eq_none fun isObject => noObject (text.isObjectText_iff.mpr isObject)

/-- The members of a request in order decode as that request, but they are a batch, and no
request in one. -/
theorem parse_by_text_of_positional :
    let body := Bytes.ofString "[\"2.0\", null, \"a.b\"]"
    Request.decode body = .ok { method := "a.b" } ∧ ¬ Json.IsObjectText body ∧
      (∃ slots, parse body = .ok (.batch slots) ∧ ∃ texts, Json.IsArrayText texts body ∧
        List.Forall₂ IsElement texts slots) ∧
      ∀ slot, IsElement body slot → slot = none := by
  intro body
  have read : Request.decode body = .ok { method := "a.b" } := by decide +kernel
  have noObject : ¬ Json.IsObjectText body := fun object => by
    obtain ⟨t, start⟩ := Json.skipBlank_of_isObjectText object
    have first : (Json.skipBlank body).head? = some 0x5B := by decide +kernel
    rw [start] at first
    exact absurd first (by simp)
  obtain ⟨slots, batch⟩ := (parse_by_text body).2.2.2.1 _ read noObject
  exact ⟨read, noObject, ⟨slots, batch, ((parse_by_text body).1 slots).mp batch⟩,
    fun slot element => (parse_by_text body).2.2.2.2 body slot element noObject⟩

end Envelope

end ScriptGate.Rpc
