import Mathlib.Data.List.Induction
import ScriptGate.Proofs.Guest.Declaration

/-!
# What declarations add up to

The first declaration that ends the script closes the answer, and what comes behind it is not heard.
What is heard adds up kind by kind: the values to the last of them, or to the objects that they end
with, and the errors to the last of each of their parts. `Answers` says which reply that makes, and
a fresh draft gives exactly that one.
-/

namespace ScriptGate

open Answer (Draft ErrorDraft Closing Reply)

/-! ### Values -/

namespace Answer

def leadingObjects : List Json → List (List (String × Json))
  | .obj members :: rest => members :: leadingObjects rest
  | _ => []

/-- What values add up to: nothing where there are none, the last one where it is no object, and
else the members of the objects that they end with, the latest of each key. -/
inductive AddsUp (values : List Json) : Option Json → Prop where
  | nothing : values = [] → AddsUp values none
  | last (value : Json) : values.getLast? = some value → (∀ members, value ≠ .obj members) →
      AddsUp values (some value)
  | objects (latest members : List (String × Json)) : values.getLast? = some (.obj latest) →
      Json.Sorted members →
      (∀ key, Json.find? key members =
        (leadingObjects values.reverse).findSome? (Json.find? key)) →
      AddsUp values (some (.obj members))

theorem leadingObjects_eq_nil {value : Json} {values : List Json}
    (last : values.getLast? = some value) (plain : ∀ members, value ≠ .obj members) :
    leadingObjects values.reverse = [] := by
  rw [← List.head?_reverse] at last
  cases shape : values.reverse with
  | nil => rfl
  | cons v rest =>
    obtain rfl : v = value := by simpa [shape] using last
    cases v with
    | obj members => exact absurd rfl (plain members)
    | _ => rfl

theorem combine_of_plain {pending : Option Json} {value : Json}
    (plain : ∀ members, value ≠ .obj members) : Draft.combine pending value = value := by
  unfold Draft.combine
  split
  · exact absurd rfl (plain _)
  · rfl

theorem AddsUp.append {values : List Json} {pending : Option Json} {value : Json}
    (before : AddsUp values pending) (ordered : value.Ordered) :
    AddsUp (values ++ [value]) (some (Draft.combine pending value)) := by
  by_cases object : ∃ members, value = .obj members
  · obtain ⟨members, rfl⟩ := object
    have sorted : Json.Sorted members := ordered.1
    cases before with
    | nothing empty =>
      subst empty
      exact .objects members members (by simp) sorted fun key => by
        cases found : Json.find? key members <;> simp [leadingObjects, found]
    | last other ends plain =>
      have alone : Draft.combine (some other) (.obj members) = .obj members := by
        cases other with
        | obj ms => exact absurd rfl (plain ms)
        | _ => rfl
      rw [alone]
      refine .objects members members (by simp) sorted fun key => ?_
      rw [List.reverse_append, List.reverse_singleton, List.singleton_append, leadingObjects,
        leadingObjects_eq_nil ends plain]
      cases found : Json.find? key members <;> simp [found]
    | objects latest pending ends inOrder found =>
      refine .objects members _ (by simp) (Json.sorted_foldl_insert members inOrder) fun key => ?_
      rw [Json.find?_foldl_insert sorted, found, List.reverse_append, List.reverse_singleton,
        List.singleton_append, leadingObjects, List.findSome?_cons]
      cases Json.find? key members <;> rfl
  · have plain : ∀ members, value ≠ .obj members := not_exists.mp object
    rw [combine_of_plain plain]
    exact .last value (by simp) plain

theorem addsUp_foldl {values : List Json} (ordered : ∀ v ∈ values, v.Ordered) :
    AddsUp values (values.foldl (fun pending v => some (Draft.combine pending v)) none) := by
  induction values using List.reverseRecOn with
  | nil => exact .nothing rfl
  | append_singleton values value ih =>
    rw [List.foldl_append]
    exact (ih fun v member => ordered v (by simp [member])).append (ordered value (by simp))

theorem AddsUp.unique {values : List Json} {first second : Option Json}
    (one : AddsUp values first) (other : AddsUp values second) : first = second := by
  cases one with
  | nothing empty =>
    subst empty
    cases other with
    | nothing => rfl
    | last value ends => simp at ends
    | objects latest members ends => simp at ends
  | last value ends plain =>
    cases other with
    | nothing empty => simp [empty] at ends
    | last value' ends' => exact ends.symm.trans ends'
    | objects latest members ends' =>
      exact absurd (Option.some.inj (ends.symm.trans ends')) (plain latest)
  | objects latest members ends sorted found =>
    cases other with
    | nothing empty => simp [empty] at ends
    | last value ends' plain =>
      exact absurd (Option.some.inj (ends'.symm.trans ends)) (plain latest)
    | objects latest' members' ends' sorted' found' =>
      rw [Json.sorted_ext sorted sorted' fun key => (found key).trans (found' key).symm]

/-! ### Errors -/

/-- The last of the given parts of one kind. -/
def latest {α : Type} (part : ErrorDraft → Option α) (errors : List ErrorDraft) : Option α :=
  (errors.filterMap part).getLast?

/-- The error that errors add up to: the last of each part, an internal error where there is no code
or none of thirty-two bits, and its message where there is none. -/
structure IsSum (errors : List ErrorDraft) (e : Rpc.Error) : Prop where
  code : e.code = ((latest (·.code) errors).filter fun c => decide (Rpc.IsCode c)).getD (-32603)
  message : e.message = (latest (·.message) errors).getD "Internal error"
  data : e.data = latest (·.data) errors

theorem foldl_merge {α : Type} (part : ErrorDraft → Option α)
    (merges : ∀ e f : ErrorDraft, part (e.merge f) = (part f).or (part e))
    (errors : List ErrorDraft) (start : ErrorDraft) :
    part (errors.foldl ErrorDraft.merge start) = (latest part errors).or (part start) := by
  induction errors generalizing start with
  | nil => rfl
  | cons e rest ih =>
    rw [List.foldl_cons, ih, merges]
    cases given : part e with
    | none => simp [latest, given]
    | some x =>
      cases later : (rest.filterMap part).getLast? <;>
        simp [latest, given, List.getLast?_cons, later]

theorem isSum_toError (errors : List ErrorDraft) :
    IsSum errors (errors.foldl ErrorDraft.merge {}).toError := by
  have code := foldl_merge (·.code) (fun _ _ => rfl) errors {}
  have message := foldl_merge (·.message) (fun _ _ => rfl) errors {}
  have data := foldl_merge (·.data) (fun _ _ => rfl) errors {}
  rw [Option.or_none] at code message data
  refine ⟨?_, ?_, ?_⟩
  · rw [← code]
    unfold ErrorDraft.toError
    split
    · rename_i c some_code
      split
      · rename_i fits
        simp [some_code, fits, Option.filter]
      · rename_i large
        simp [some_code, large, Option.filter, Rpc.Error.internalError]
    · rename_i no_code
      simp [no_code, Rpc.Error.internalError]
  · rw [← message]
    unfold ErrorDraft.toError
    split
    · split <;> rfl
    · rfl
  · rw [← data]
    unfold ErrorDraft.toError
    split
    · split <;> rfl
    · rfl

theorem IsSum.unique {errors : List ErrorDraft} {e f : Rpc.Error} (one : IsSum errors e)
    (other : IsSum errors f) : e = f := by
  obtain ⟨code, message, data, isCode⟩ := e
  obtain ⟨code', message', data', isCode'⟩ := f
  obtain rfl : code = code' := one.code.trans other.code.symm
  obtain rfl : message = message' := one.message.trans other.message.symm
  obtain rfl : data = data' := one.data.trans other.data.symm
  rfl

theorem isEmpty_merge (e f : ErrorDraft) : (e.merge f).isEmpty = (e.isEmpty && f.isEmpty) := by
  obtain ⟨code, message, data⟩ := e
  obtain ⟨code', message', data'⟩ := f
  cases code <;> cases message <;> cases data <;> cases code' <;> cases message' <;>
    cases data' <;> rfl

theorem isEmpty_foldl_merge (errors : List ErrorDraft) (start : ErrorDraft) :
    (errors.foldl ErrorDraft.merge start).isEmpty =
      (start.isEmpty && errors.all ErrorDraft.isEmpty) := by
  induction errors generalizing start with
  | nil => simp
  | cons e rest ih => rw [List.foldl_cons, ih, isEmpty_merge, List.all_cons, Bool.and_assoc]

end Answer

/-! ### Declarations -/

namespace Guest.Declaration

/-- The declarations that are heard: none behind the first that ends the script. -/
def heard : List Declaration → List Declaration
  | [] => []
  | c :: rest => if c.isFinal then [c] else c :: heard rest

def given? : Declaration → Option Json
  | .set value => some value
  | .send value => value
  | .setError _ | .sendError _ => none

def error? : Declaration → Option ErrorDraft
  | .set _ | .send _ => none
  | .setError parts | .sendError parts => some parts

def closing? : Declaration → Option Closing
  | .set _ | .setError _ => none
  | .send _ => some .result
  | .sendError _ => some .error

def values (cs : List Declaration) : List Json := cs.filterMap given?

def errors (cs : List Declaration) : List ErrorDraft := cs.filterMap error?

/-- The reply to declarations: that of the one that closes the answer, and where none does an error
if any part of one was given, else the result. -/
inductive Answers (cs : List Declaration) : Reply → Prop where
  | sent {pending : Option Json} : cs.findSome? closing? = some .result →
      Answer.AddsUp (values cs) pending → Answers cs (.result (pending.getD .null))
  | failed {e : Rpc.Error} : cs.findSome? closing? = some .error →
      Answer.IsSum (errors cs) e → Answers cs (.error e)
  | pendingError {e : Rpc.Error} : cs.findSome? closing? = none →
      (∃ parts ∈ errors cs, parts.isEmpty = false) → Answer.IsSum (errors cs) e →
      Answers cs (.error e)
  | pendingResult {pending : Option Json} : cs.findSome? closing? = none →
      (∀ parts ∈ errors cs, parts.isEmpty = true) → Answer.AddsUp (values cs) pending →
      Answers cs (.result (pending.getD .null))

def applyAll (d : Draft) (cs : List Declaration) : Draft := cs.foldl (fun d c => c.apply d) d

theorem applyAll_append (d : Draft) (first second : List Declaration) :
    applyAll d (first ++ second) = applyAll (applyAll d first) second := List.foldl_append

theorem applyAll_fits {d : Draft} {cs : List Declaration} (before : d.DataFits)
    (fits : ∀ c ∈ cs, c.DataFits) : (applyAll d cs).DataFits := by
  induction cs generalizing d with
  | nil => exact before
  | cons c rest ih =>
    exact ih (apply_fits before (fits c (by simp)))
      fun other member => fits other (List.mem_cons_of_mem _ member)

theorem isFinal_eq (c : Declaration) : c.isFinal = c.closing?.isSome := by cases c <;> rfl

/-! ### What one declaration does -/

variable {c : Declaration} {cs : List Declaration} {d : Draft}

theorem apply_of_closed (closed : d.isClosed = true) (c : Declaration) : c.apply d = d := by
  cases c <;> simp [apply, Draft.set, Draft.send, Draft.setError, Draft.sendError, closed]

/-- On an open answer a declaration combines its value, merges its error, and closes if it is to. -/
theorem apply_of_open (is_open : d.isClosed = false) (c : Declaration) : c.apply d =
    { result := (c.given?.map (Draft.combine d.result)).or d.result
      error := d.error.merge (c.error?.getD {})
      closing := c.closing? } := by
  obtain ⟨result, error, closing⟩ := d
  obtain rfl : closing = none := by simpa [Draft.isClosed] using is_open
  cases c with
  | set value => rfl
  | setError parts => rfl
  | send value => cases value <;> rfl
  | sendError parts => rfl

theorem applyAll_of_closed (closed : d.isClosed = true) (cs : List Declaration) :
    applyAll d cs = d := by
  induction cs with
  | nil => rfl
  | cons c rest ih => exact (congrArg (applyAll · rest) (apply_of_closed closed c)).trans ih

theorem isClosed_apply (is_open : d.isClosed = false) (c : Declaration) :
    (c.apply d).isClosed = c.isFinal := by
  rw [apply_of_open is_open, Draft.isClosed, isFinal_eq]

/-! ### What all of them do -/

/-- Nothing behind the declaration that closes the answer changes it. -/
theorem applyAll_heard (is_open : d.isClosed = false) (cs : List Declaration) :
    applyAll d (heard cs) = applyAll d cs := by
  induction cs generalizing d with
  | nil => rfl
  | cons c rest ih =>
    rw [heard]
    split
    · rename_i final
      exact (applyAll_of_closed ((isClosed_apply is_open c).trans final) rest).symm
    · rename_i goes_on
      exact ih ((isClosed_apply is_open c).trans (by simpa using goes_on))

theorem applyAll_heard_eq (is_open : d.isClosed = false) (cs : List Declaration) :
    applyAll d (heard cs) =
      { result := (values (heard cs)).foldl (fun p v => some (Draft.combine p v)) d.result
        error := (errors (heard cs)).foldl ErrorDraft.merge d.error
        closing := (heard cs).findSome? closing? } := by
  induction cs generalizing d with
  | nil =>
    obtain ⟨result, error, closing⟩ := d
    obtain rfl : closing = none := by simpa [Draft.isClosed] using is_open
    rfl
  | cons c rest ih =>
    have first := apply_of_open is_open c
    rw [heard]
    split
    · -- The last one that is heard: it alone says whether and how the answer is closed.
      have alone : applyAll d [c] = c.apply d := rfl
      rw [alone, first]
      cases c with
      | send value => cases value <;> rfl
      | _ => rfl
    · rename_i goes_on
      have still : (c.apply d).isClosed = false :=
        (isClosed_apply is_open c).trans (by simpa using goes_on)
      have step : applyAll d (c :: heard rest) = applyAll (c.apply d) (heard rest) := rfl
      rw [step, ih still, first]
      cases c with
      | set value => rfl
      | setError parts => rfl
      | send | sendError => exact absurd rfl goes_on

/-- The value that a declaration gives is in key order. -/
def Ordered (c : Declaration) : Prop := ∀ v, c.given? = some v → v.Ordered

theorem DataFits.ordered (fits : c.DataFits) : c.Ordered := by
  intro v given
  cases c with
  | set value => exact Option.some.inj given ▸ fits.ordered
  | send value => exact (fits v given).ordered
  | setError | sendError => simp [given?] at given

theorem mem_of_mem_heard (member : c ∈ heard cs) : c ∈ cs := by
  induction cs with
  | nil => exact member
  | cons first rest ih =>
    rw [heard] at member
    split at member
    · simpa using .inl (List.mem_singleton.mp member)
    · rcases List.mem_cons.mp member with rfl | later
      · simp
      · exact List.mem_cons_of_mem _ (ih later)

theorem ordered_values (ordered : ∀ c ∈ cs, c.Ordered) : ∀ v ∈ values cs, v.Ordered := by
  intro v member
  obtain ⟨c, inside, given⟩ := List.mem_filterMap.mp member
  exact ordered c inside v given

/-- A draft that declarations have been added to from the start answers as they do. -/
theorem answers_finish (ordered : ∀ c ∈ cs, c.Ordered) :
    Answers (heard cs) (applyAll {} cs).finish := by
  have adds := Answer.addsUp_foldl
    (ordered_values fun c member => ordered c (mem_of_mem_heard member))
  have sum := Answer.isSum_toError (errors (heard cs))
  have empty := Answer.isEmpty_foldl_merge (errors (heard cs)) {}
  have none_before : ErrorDraft.isEmpty {} = true := rfl
  have fresh : Draft.isClosed {} = false := rfl
  rw [← applyAll_heard fresh cs, applyAll_heard_eq fresh cs]
  unfold Draft.finish
  dsimp only
  cases closes : (heard cs).findSome? closing? with
  | some kind =>
    cases kind with
    | result => exact .sent closes adds
    | error => exact .failed closes sum
  | none =>
    dsimp only
    split
    · rename_i none_given
      rw [empty, none_before, Bool.true_and, List.all_eq_true] at none_given
      exact .pendingResult closes none_given adds
    · rename_i some_given
      rw [empty, none_before, Bool.true_and, Bool.not_eq_true, List.all_eq_false] at some_given
      obtain ⟨parts, member, given⟩ := some_given
      exact .pendingError closes ⟨parts, member, by simpa using given⟩ sum

theorem Answers.unique {first second : Reply} (one : Answers cs first) (other : Answers cs second) :
    first = second := by
  cases one with
  | sent closes adds =>
    cases other with
    | sent _ adds' => rw [adds.unique adds']
    | failed closes' | pendingError closes' | pendingResult closes' =>
      exact absurd (closes.symm.trans closes') (by simp)
  | failed closes sum =>
    cases other with
    | failed _ sum' => rw [sum.unique sum']
    | sent closes' | pendingError closes' | pendingResult closes' =>
      exact absurd (closes.symm.trans closes') (by simp)
  | pendingError closes given sum =>
    cases other with
    | pendingError _ _ sum' => rw [sum.unique sum']
    | sent closes' | failed closes' => exact absurd (closes.symm.trans closes') (by simp)
    | pendingResult _ empty =>
      obtain ⟨parts, member, some_part⟩ := given
      exact absurd (empty parts member) (by simp [some_part])
  | pendingResult closes empty adds =>
    cases other with
    | pendingResult _ _ adds' => rw [adds.unique adds']
    | sent closes' | failed closes' => exact absurd (closes.symm.trans closes') (by simp)
    | pendingError _ given =>
      obtain ⟨parts, member, some_part⟩ := given
      exact absurd (empty parts member) (by simp [some_part])

/-- What has been declared comes to the reply of what is heard of it, and to no other. -/
theorem finish_eq_iff_answers (cs : List Declaration) (ordered : ∀ c ∈ cs, c.Ordered)
    (reply : Reply) :
    applyAll {} cs = applyAll {} (heard cs) ∧
      ((applyAll {} cs).finish = reply ↔ Answers (heard cs) reply) := by
  have answers := answers_finish ordered
  refine ⟨(applyAll_heard rfl cs).symm, ?_⟩
  constructor
  · rintro rfl
    exact answers
  · intro also
    exact answers.unique also

/-- Two objects and a late value around an error: the objects are put together, and `send` closes
the answer before the late value is heard. -/
theorem finish_of_merged_objects :
    let object (key : String) (i : Int) : Json := .obj [(key, .int i)]
    let cs : List Declaration := [.set (.str "first"), .set (object "b" 1),
      .setError { code := some 7 }, .send (some (.obj [("a", .int 2), ("b", .int 3)])),
      .set (.str "late")]
    (∀ c ∈ cs, c.Ordered) ∧
      Answers (heard cs) (.result (.obj [("a", .int 2), ("b", .int 3)])) := by
  intro object cs
  have ordered : ∀ c ∈ cs, c.Ordered := by
    intro c member v given
    simp only [cs, List.mem_cons, List.not_mem_nil, or_false] at member
    have word (i : Int) : Json.Ordered (.int i) := (Json.fits_int (n := 0) i).ordered
    rcases member with rfl | rfl | rfl | rfl | rfl
    · exact Option.some.inj given ▸ trivial
    · exact Option.some.inj given ▸ ⟨by simp, word 1, trivial⟩
    · exact absurd given (by simp [given?])
    · have sorted : Json.Sorted [("a", .int 2), ("b", .int 3)] :=
        List.pairwise_pair.mpr (by decide)
      exact Option.some.inj given ▸ ⟨sorted, word 2, word 3, trivial⟩
    · exact Option.some.inj given ▸ trivial
  have replies : (applyAll {} cs).finish = .result (.obj [("a", .int 2), ("b", .int 3)]) := by
    decide +kernel
  exact ⟨ordered, (finish_eq_iff_answers cs ordered _).2.mp replies⟩

end Guest.Declaration

end ScriptGate
