import Mathlib.Data.List.Forall2
import ScriptGate.Proofs.Json.Members
import ScriptGate.Rpc.Envelope

/-!
# The slots of a batch

A single request is read from its text and a slot of a batch from a value. Where no member that a
request knows stands twice, both give the same request or both give none.
-/

namespace ScriptGate.Json

theorem find?_eq_none_of_count {key : String} {ms : List (String × Json)}
    (absent : (ms.map Prod.fst).count key = 0) : find? key ms = none := by
  refine find?_eq_none fun m member same => ?_
  exact List.count_eq_zero.mp absent (same ▸ List.mem_map_of_mem member)

/-- A key that stands once has the same value in the text and in the object. -/
theorem find?_ofPairs_of_once {key : String} {ms : List (String × Json)}
    (once : (ms.map Prod.fst).count key ≤ 1) : find? key (ofPairs ms) = find? key ms := by
  rw [find?_ofPairs]
  induction ms with
  | nil => rfl
  | cons m ms ih =>
    rw [List.map_cons, List.count_cons] at once
    rw [List.reverse_cons, List.find?_append, find?_cons]
    split
    · rename_i same
      have absent : find? key ms = none := find?_eq_none_of_count (by simpa [same] using once)
      have before := ih (by simp [same] at once; omega)
      rw [absent, Option.map_eq_none_iff] at before
      simp [before, same]
    · rename_i other
      have before := ih (by omega)
      simp [other, ← before]

end ScriptGate.Json

namespace ScriptGate.Rpc.Request

open Json (find?)

theorem toOption_map {ε α β : Type} (f : α → β) (x : Except ε α) :
    (x.map f).toOption = x.toOption.map f := by
  cases x <;> rfl

def present (v : Json) : Option Json := if v = .null then none else some v

/-- What a member of this name and value makes of the members read before it. -/
def Draft.take (name : String) (d : Draft) (v : Json) : Option Draft :=
  if name = "jsonrpc" then v.string?.map fun x => { d with jsonrpc := some x }
  else if name = "id" then some { d with id := some (present v) }
  else if name = "method" then v.string?.map fun x => { d with method := some x }
  else if name = "params" then some { d with params := some (present v) }
  else v.string?.map fun x => { d with contextVersion := some x }

theorem fields_take : Json.Takes fields Draft.take := by
  intro f member fuel depth d s v r read
  have text := Json.stringValue_of_value read
  have value := Json.optional_of_value read
  simp only [fields, List.mem_cons, List.not_mem_nil, or_false] at member
  rcases member with rfl | rfl | rfl | rfl | rfl
  · simp [toOption_map, text, Draft.take, Function.comp_def]
  · simp [value, Draft.take, present, Except.map, Except.toOption]
  · simp [toOption_map, text, Draft.take, Function.comp_def]
  · simp [value, Draft.take, present, Except.map, Except.toOption]
  · simp [toOption_map, text, Draft.take, Function.comp_def]

/-- No member that a request knows stands twice. -/
def Once (ms : List (String × Json)) : Prop :=
  ∀ f ∈ fields, (ms.map Prod.fst).count f.name ≤ 1

/-- The members that are still to come have not been read. -/
def Draft.Awaits (d : Draft) (ms : List (String × Json)) : Prop :=
  ∀ f ∈ fields, f.name ∈ ms.map Prod.fst → f.seen d = false

section Members

variable {m : String × Json} {ms : List (String × Json)} {d next : Draft}

theorem once_tail (once : Once (m :: ms)) : Once ms := fun f known => by
  have whole := once f known
  rw [List.map_cons, List.count_cons] at whole
  omega

theorem not_mem_tail (once : Once (m :: ms)) {f : Json.Field Draft} (known : f ∈ fields)
    (same : m.1 = f.name) : f.name ∉ ms.map Prod.fst := by
  have whole := once f known
  rw [List.map_cons, List.count_cons, same, if_pos (by simp)] at whole
  exact List.count_eq_zero.mp (by omega)

theorem Draft.Awaits.tail (once : Once (m :: ms)) (awaits : d.Awaits (m :: ms))
    (same : ∀ f ∈ fields, m.1 ≠ f.name → f.seen next = f.seen d) : next.Awaits ms := by
  intro f known later
  by_cases first : m.1 = f.name
  · exact absurd later (not_mem_tail once known first)
  · rw [same f known first]
    exact awaits f known (List.mem_cons_of_mem _ later)

/-- A string of a draft after one more member of its name, if there is one. -/
def textAfter (old : Option String) : Option Json → Option (Option String)
  | none => some old
  | some v => v.string?.map some

/-- A draft after members that stand once. -/
def Draft.after (d : Draft) (ms : List (String × Json)) : Option Draft := do
  let jsonrpc ← textAfter d.jsonrpc (find? "jsonrpc" ms)
  let method ← textAfter d.method (find? "method" ms)
  let contextVersion ← textAfter d.contextVersion (find? "context-version" ms)
  return {
    jsonrpc, method, contextVersion
    id := ((find? "id" ms).map present).or d.id
    params := ((find? "params" ms).map present).or d.params }

/-- A known member has not been read and does not stand again. -/
theorem Draft.Awaits.first (once : Once (m :: ms)) (awaits : d.Awaits (m :: ms))
    {f : Json.Field Draft} (known : f ∈ fields) (same : m.1 = f.name) :
    f.seen d = false ∧ find? f.name ms = none := by
  refine ⟨awaits f known (by simp [same]), Json.find?_eq_none fun _ member equal => ?_⟩
  exact not_mem_tail once known same (equal ▸ List.mem_map_of_mem member)

/-- One member, and the others after it. -/
theorem after_cons (once : Once (m :: ms)) (awaits : d.Awaits (m :: ms)) :
    d.after (m :: ms) = Json.absorb fields Draft.take d m >>= fun next => next.after ms := by
  rcases m with ⟨key, v⟩
  by_cases tag : key = "jsonrpc"
  · subst tag
    obtain ⟨unseen, absent⟩ := awaits.first once (f := fields[0]) (by simp [fields]) rfl
    simp only [fields, List.getElem_cons_zero, Option.isSome_eq_false_iff] at unseen absent
    cases text : v.string? <;> simp_all [Draft.after, Json.find?_cons, Json.absorb, fields,
      Draft.take, textAfter]
  by_cases id : key = "id"
  · subst id
    obtain ⟨unseen, absent⟩ := awaits.first once (f := fields[1]) (by simp [fields]) rfl
    simp_all [Draft.after, Json.find?_cons, Json.absorb, fields, Draft.take]
  by_cases name : key = "method"
  · subst name
    obtain ⟨unseen, absent⟩ := awaits.first once (f := fields[2]) (by simp [fields]) rfl
    cases text : v.string? <;> simp_all [Draft.after, Json.find?_cons, Json.absorb, fields,
      Draft.take, textAfter]
  by_cases given : key = "params"
  · subst given
    obtain ⟨unseen, absent⟩ := awaits.first once (f := fields[3]) (by simp [fields]) rfl
    simp_all [Draft.after, Json.find?_cons, Json.absorb, fields, Draft.take]
  by_cases backend : key = "context-version"
  · subst backend
    obtain ⟨unseen, absent⟩ := awaits.first once (f := fields[4]) (by simp [fields]) rfl
    cases text : v.string? <;> simp_all [Draft.after, Json.find?_cons, Json.absorb, fields,
      Draft.take, textAfter]
  -- A member that is not known is passed over.
  · simp [Draft.after, Json.find?_cons, Json.absorb, fields, tag, id, name, given, backend, Ne.symm]

/-- A member marks only its own name as read. -/
theorem seen_absorb (taken : Json.absorb fields Draft.take d m = some next)
    {f : Json.Field Draft} (known : f ∈ fields) (other : m.1 ≠ f.name) :
    f.seen next = f.seen d := by
  unfold Json.absorb at taken
  split at taken
  · rename_i g found
    have same : g.name = m.1 := by simpa using List.find?_some found
    have member := List.mem_of_find?_eq_some found
    rw [← same] at other
    split at taken
    · simp at taken
    simp only [fields, List.mem_cons, List.not_mem_nil, or_false] at known member
    rcases member with rfl | rfl | rfl | rfl | rfl <;>
      simp only [Draft.take, if_true, String.reduceEq, if_false, Option.map_eq_some_iff,
        Option.some.injEq] at taken
    all_goals
      rcases known with rfl | rfl | rfl | rfl | rfl <;> aesop
  · obtain rfl := Option.some.inj taken
    rfl

theorem foldlM_absorb (once : Once ms) (awaits : d.Awaits ms) :
    ms.foldlM (Json.absorb fields Draft.take) d = d.after ms := by
  induction ms generalizing d with
  | nil => rfl
  | cons m ms ih =>
    rw [List.foldlM_cons, after_cons once awaits]
    cases taken : Json.absorb fields Draft.take d m with
    | none => rfl
    | some next =>
      exact ih (once_tail once) (awaits.tail once fun f known => seen_absorb taken known)

theorem stringMember?_eq (key : String) (ms : List (String × Json)) :
    stringMember? key ms = (textAfter none (find? key ms)).map (·.getD "") := by
  cases found : find? key ms with
  | none => simp [stringMember?, found, textAfter]
  | some v => cases v <;> simp [stringMember?, found, textAfter, Json.string?]

theorem valueMember_eq (key : String) (ms : List (String × Json)) :
    valueMember key ms = ((find? key ms).map present).join := by
  cases found : find? key ms with
  | none => simp [valueMember, found]
  | some v => cases v <;> simp [valueMember, found, present]

/-- A slot of a batch takes the members as a single request does. -/
theorem ofJson?_ofPairs (once : Once ms) :
    ofJson? (.obj (Json.ofPairs ms)) =
      (ms.foldlM (Json.absorb fields Draft.take) {}).map Draft.toRequest := by
  have awaits : Draft.Awaits {} ms := fun f known _ => by
    simp only [fields, List.mem_cons, List.not_mem_nil, or_false] at known
    rcases known with rfl | rfl | rfl | rfl | rfl <;> rfl
  have kept {f : Json.Field Draft} (known : f ∈ fields) :
      find? f.name (Json.ofPairs ms) = find? f.name ms := Json.find?_ofPairs_of_once (once f known)
  have tag := kept (f := fields[0]) (by simp [fields])
  have id := kept (f := fields[1]) (by simp [fields])
  have name := kept (f := fields[2]) (by simp [fields])
  have given := kept (f := fields[3]) (by simp [fields])
  have backend := kept (f := fields[4]) (by simp [fields])
  simp only [fields, List.getElem_cons_zero, List.getElem_cons_succ] at tag id name given backend
  rw [foldlM_absorb once awaits, Draft.after]
  simp only [ofJson?, stringMember?_eq, valueMember_eq, tag, id, name, given, backend]
  cases textAfter none (find? "jsonrpc" ms) <;> cases textAfter none (find? "method" ms) <;>
    cases textAfter none (find? "context-version" ms) <;> simp [Draft.toRequest]

end Members

/-- The text of an object whose known members stand once is a request exactly where its value is
one, and the same. -/
theorem toOption_decode {t : Bytes} {ms : List (String × Json)}
    (read : Json.textMembers 126 t = .ok ms) (once : Once ms) :
    (decode t).toOption = ofJson? (.obj (Json.ofPairs ms)) := by
  have within : 126 ≤ Json.maxDepth := by decide
  obtain ⟨r, blank, taken⟩ := Json.record_toOption fields_take within read {}
  rw [ofJson?_ofPairs once, decode]
  cases members : ms.foldlM (Json.absorb fields Draft.take) {} with
  | none =>
    obtain ⟨e, failed⟩ := Json.eq_error_of_toOption (by rw [taken, members]; rfl)
    rw [failed]
    rfl
  | some d =>
    rw [Json.eq_ok_of_toOption (taken.trans (congrArg _ members))]
    simp [Json.finish_eq_ok_iff.mpr ⟨blank, rfl⟩, Except.toOption]

/-- A text of an object is a single body. -/
theorem parse_of_textMembers {t : Bytes} {ms : List (String × Json)}
    (read : Json.textMembers 126 t = .ok ms) :
    Envelope.parse t = (decode t).map .single := by
  obtain ⟨r, found, -⟩ := Json.textMembers_iff.mp ⟨ms, read, rfl⟩
  obtain ⟨b, u, start, begins⟩ := Json.begins_of_value found
  have noArray := Json.parse_ne_arr start (by rw [begins]; decide)
  unfold Envelope.parse
  split
  · rename_i items whole
    exact absurd whole (noArray items)
  · rfl

/-- A slot for a body of its own: the request that it is, or invalid where it is none. -/
def SlotFor (t : Bytes) (slot : Option Request) : Prop :=
  (∀ r, slot = some r ↔ Envelope.parse t = .ok (.single r)) ∧
    (slot = none ↔ ∃ e, Envelope.parse t = .error e)

theorem slotFor_of_textMembers {t : Bytes} {ms : List (String × Json)}
    (read : Json.textMembers 126 t = .ok ms) (once : Once ms) :
    SlotFor t (ofJson? (.obj (Json.ofPairs ms))) := by
  rw [SlotFor, ← toOption_decode read once, parse_of_textMembers read]
  cases decode t with
  | error e => simp [Except.map, Except.toOption]
  | ok r => simp [Except.map, Except.toOption]

theorem forall₂_exists {α β : Type} {R : α → β → Prop} {xs : List α}
    (each : ∀ x ∈ xs, ∃ y, R x y) : ∃ ys, List.Forall₂ R xs ys := by
  induction xs with
  | nil => exact ⟨[], .nil⟩
  | cons x xs ih =>
    obtain ⟨y, first⟩ := each x (by simp)
    obtain ⟨ys, others⟩ := ih fun x member => each x (List.mem_cons_of_mem _ member)
    exact ⟨y :: ys, .cons first others⟩

/-- Object texts in which at most 126 containers nest and no member that a request knows stands
twice, put together as an array, are a batch with one slot for each in the same order, and each slot
holds the request that its text is on its own, or none where the text is no request. -/
theorem batch_of_texts (texts : List Bytes) (some_text : texts ≠ [])
    (objects : ∀ t ∈ texts, ∃ ms, Json.textMembers 126 t = .ok ms ∧ Once ms) :
    ∃ slots, Envelope.parse (Json.arrayText texts) = .ok (.batch slots) ∧
      List.Forall₂ SlotFor texts slots := by
  have values : ∃ vs, List.Forall₂ (fun t v => Json.IsText 126 t v ∧ SlotFor t (ofJson? v))
      texts vs := forall₂_exists fun t member => by
    obtain ⟨ms, read, once⟩ := objects t member
    exact ⟨_, Json.textMembers_iff.mp ⟨ms, read, rfl⟩, slotFor_of_textMembers read once⟩
  obtain ⟨vs, related⟩ := values
  have whole := Json.parse_arrayText some_text (related.imp fun _ _ both => both.1)
  refine ⟨vs.map ofJson?, by rw [Envelope.parse, whole], ?_⟩
  exact List.forall₂_map_right_iff.mpr (related.imp fun _ _ both => both.2)

theorem batch_of_texts_of_good_and_bad :
    let good := Bytes.ofString "\x7b \"method\": \"a.b\", \"id\": null, \"more\": [\x7b\x7d] \x7d "
    let bad := Bytes.ofString "\x7b\"method\":[]\x7d"
    ([good, bad, good] : List Bytes) ≠ [] ∧
    (∀ t ∈ [good, bad, good], ∃ ms, Json.textMembers 126 t = .ok ms ∧ Once ms) ∧
    ∃ slots, Envelope.parse (Json.arrayText [good, bad, good]) = .ok (.batch slots) ∧
      List.Forall₂ SlotFor [good, bad, good] slots := by
  intro good bad
  have good_members : Json.textMembers 126 good =
      .ok [("method", .str "a.b"), ("id", .null), ("more", .arr [.obj []])] := by decide +kernel
  have bad_members : Json.textMembers 126 bad = .ok [("method", .arr [])] := by decide +kernel
  have objects : ∀ t ∈ [good, bad, good], ∃ ms, Json.textMembers 126 t = .ok ms ∧ Once ms := by
    simp only [List.mem_cons, List.not_mem_nil, or_false]
    rintro t (rfl | rfl | rfl)
    · exact ⟨_, good_members, by simp [Once, fields]⟩
    · exact ⟨_, bad_members, by simp [Once, fields]⟩
    · exact ⟨_, good_members, by simp [Once, fields]⟩
  exact ⟨by simp, objects, batch_of_texts _ (by simp) objects⟩

end ScriptGate.Rpc.Request
