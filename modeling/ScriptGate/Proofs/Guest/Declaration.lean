import ScriptGate.Guest.Declaration
import ScriptGate.Proofs.Json.Parser

/-!
# What a script can declare fits

A guest value crosses the bridge only if it nests in at most `Bridge.maxDepth` containers, so every
value that a declaration carries fits them, and so does every answer that declarations add up to.
-/

namespace ScriptGate

open Lua (Value Heap)

/-! ### Values that cross the bridge -/

namespace Bridge

open Json (Fits MembersFit)

variable {n : Nat} {convert : Value → Except Fault Json}

theorem mapM_fits (fits : ∀ v j, convert v = .ok j → Fits n j) {items : List Value}
    {js : List Json} (read : items.mapM convert = .ok js) : ∀ j ∈ js, Fits n j := by
  induction items generalizing js with
  | nil =>
    obtain rfl : [] = js := Except.ok.inj read
    simp
  | cons v rest ih =>
    rw [List.mapM_cons] at read
    obtain ⟨j, first, read⟩ := Json.bind_eq_ok read
    obtain ⟨others, later, read⟩ := Json.bind_eq_ok read
    obtain rfl : j :: others = js := Except.ok.inj read
    intro x member
    rcases List.mem_cons.mp member with rfl | behind
    · exact fits v x first
    · exact ih later x behind

theorem foldlM_keeps {α β : Type} {step : β → α → Except Fault β} {P : β → Prop}
    (keeps : ∀ acc x next, P acc → step acc x = .ok next → P next) {items : List α} {acc last : β}
    (start : P acc) (read : items.foldlM step acc = .ok last) : P last := by
  induction items generalizing acc with
  | nil =>
    obtain rfl : acc = last := Except.ok.inj read
    exact start
  | cons x rest ih =>
    rw [List.foldlM_cons] at read
    obtain ⟨next, first, later⟩ := Json.bind_eq_ok read
    exact ih (keeps acc x next start first) later

theorem members_fit (fits : ∀ v j, convert v = .ok j → Fits n j) {entries : List (Value × Value)}
    {ms : List (String × Json)} (read : members convert entries = .ok ms) : MembersFit n ms := by
  refine foldlM_keeps (P := MembersFit n) (fun acc e next before step => ?_) Json.membersFit_nil
    read
  split at step
  · obtain ⟨j, found, step⟩ := Json.bind_eq_ok step
    obtain rfl := Except.ok.inj step
    exact Json.membersFit_insert before (fits e.2 j found)
  · obtain rfl : acc = next := Except.ok.inj step
    exact before

theorem contents_fit (fits : ∀ v j, convert v = .ok j → Fits n j) {c : Contents} {j : Json}
    (read : c.toJson convert = .ok j) : Fits (n + 1) j := by
  have list {items : List Value}
      (read : (do return Json.arr (← items.mapM convert) : Except Fault Json) = .ok j) :
      Fits (n + 1) j := by
    obtain ⟨js, found, read⟩ := Json.bind_eq_ok read
    obtain rfl : Json.arr js = j := Except.ok.inj read
    exact Json.fits_arr_iff.mpr (mapM_fits fits found)
  unfold Contents.toJson at read
  split at read
  · exact list read
  · split at read
    · exact list read
    · obtain ⟨ms, found, read⟩ := Json.bind_eq_ok read
      obtain rfl : Json.obj ms = j := Except.ok.inj read
      exact Json.fits_obj_iff.mpr (members_fit fits found)

theorem read_fits (look : Nat → Contents) {levels : Nat} {v : Value} {j : Json}
    (found : read look levels v = .ok j) : Fits levels j := by
  have leaf {m : Nat} {w j : Json} (fits : Fits m w)
      (found : (Except.ok w : Except Fault Json) = .ok j) : Fits m j := Except.ok.inj found ▸ fits
  induction levels generalizing v j with
  | zero =>
    cases v with
    | number x => cases x <;> exact leaf (by simp) found
    | table place => simp [read] at found
    | _ => exact leaf (by simp) found
  | succ levels ih =>
    cases v with
    | number x => cases x <;> exact leaf (by simp) found
    | table place => exact contents_fit (fun v j found => ih found) found
    | _ => exact leaf (by simp) found

/-- What crosses the bridge nests no deeper than the bridge lets through. -/
theorem toJson_fits {h : Heap} {v : Value} {j : Json} (found : toJson h v = .ok j) :
    Fits maxDepth j :=
  read_fits (contents h) found

end Bridge

/-! ### Answers -/

namespace Answer

open Json (Fits)

def ErrorDraft.DataFits (e : ErrorDraft) : Prop := ∀ v, e.data = some v → Fits Bridge.maxDepth v

/-- The values that a script has declared so far fit. -/
structure Draft.DataFits (d : Draft) : Prop where
  result : ∀ v, d.result = some v → Fits Bridge.maxDepth v
  error : d.error.DataFits

def Reply.DataFits : Reply → Prop
  | .result value => Fits Bridge.maxDepth value
  | .error e => ∀ v, e.data = some v → Fits Bridge.maxDepth v

theorem Draft.dataFits_empty : Draft.DataFits {} := ⟨by simp, by simp [ErrorDraft.DataFits]⟩

theorem combine_fits {n : Nat} {pending : Option Json} {value : Json}
    (before : ∀ v, pending = some v → Fits n v) (fits : Fits n value) :
    Fits n (Draft.combine pending value) := by
  unfold Draft.combine
  split
  · rename_i members added
    cases n with
    | zero => exact absurd fits Json.not_fits_zero_obj
    | succ n =>
      have old := Json.fits_obj_iff.mp (before _ rfl)
      have new := (Json.fits_obj_iff.mp fits).fits
      refine Json.fits_obj_iff.mpr ?_
      clear before fits
      induction added generalizing members with
      | nil => exact old
      | cons m rest ih =>
        exact ih _ (Json.membersFit_insert old (new m (by simp)))
          fun other member => new other (List.mem_cons_of_mem _ member)
  · exact fits

theorem Draft.set_fits {d : Draft} {value : Json} (before : d.DataFits)
    (fits : Fits Bridge.maxDepth value) : (d.set value).DataFits := by
  unfold Draft.set
  split
  · exact before
  · refine ⟨fun v found => ?_, before.error⟩
    obtain rfl := Option.some.inj found
    exact combine_fits before.result fits

theorem merge_fits {earlier later : ErrorDraft} (first : earlier.DataFits)
    (second : later.DataFits) : (earlier.merge later).DataFits := by
  intro v found
  rcases Option.or_eq_some_iff.mp found with new | ⟨-, old⟩
  · exact second v new
  · exact first v old

theorem Draft.setError_fits {d : Draft} {parts : ErrorDraft} (before : d.DataFits)
    (fits : parts.DataFits) : (d.setError parts).DataFits := by
  unfold Draft.setError
  split
  · exact before
  · exact ⟨before.result, merge_fits before.error fits⟩

theorem Draft.send_fits {d : Draft} {value : Option Json} (before : d.DataFits)
    (fits : ∀ v, value = some v → Fits Bridge.maxDepth v) : (d.send value).DataFits := by
  unfold Draft.send
  split
  · exact before
  · cases value with
    | none => exact ⟨before.result, before.error⟩
    | some v =>
      have set := set_fits before (fits v rfl)
      exact ⟨set.result, set.error⟩

theorem Draft.sendError_fits {d : Draft} {parts : ErrorDraft} (before : d.DataFits)
    (fits : parts.DataFits) : (d.sendError parts).DataFits := by
  unfold Draft.sendError
  split
  · exact before
  · have set := setError_fits before fits
    exact ⟨set.result, set.error⟩

theorem ErrorDraft.toError_fits {e : ErrorDraft} (fits : e.DataFits) :
    ∀ v, e.toError.data = some v → Fits Bridge.maxDepth v := by
  unfold ErrorDraft.toError
  split
  · split <;> exact fits
  · exact fits

theorem Draft.finish_fits {d : Draft} (fits : d.DataFits) : d.finish.DataFits := by
  have result : Reply.DataFits (.result (d.result.getD .null)) := by
    cases found : d.result with
    | none => exact Json.fits_null
    | some v => exact fits.result v found
  have error : Reply.DataFits (.error d.error.toError) := ErrorDraft.toError_fits fits.error
  unfold Draft.finish
  split
  · exact result
  · exact error
  · split
    · exact result
    · exact error

end Answer

namespace Guest.Declaration

/-- The value that a declaration carries, if it has one, fits. -/
def DataFits : Declaration → Prop
  | .set value => Json.Fits Bridge.maxDepth value
  | .send value => ∀ v, value = some v → Json.Fits Bridge.maxDepth v
  | .setError parts | .sendError parts => parts.DataFits

theorem apply_fits {c : Declaration} {d : Answer.Draft} (before : d.DataFits) (fits : c.DataFits) :
    (c.apply d).DataFits := by
  cases c with
  | set value => exact Answer.Draft.set_fits before fits
  | setError parts => exact Answer.Draft.setError_fits before fits
  | send value => exact Answer.Draft.send_fits before fits
  | sendError parts => exact Answer.Draft.sendError_fits before fits

theorem json_eq_ok_iff {h : Heap} {v : Value} {j : Json} :
    Argument.json h v = .ok j ↔ Bridge.toJson h v = .ok j := by
  rw [Argument.json]
  cases Bridge.toJson h v with
  | error f =>
    refine iff_of_false (fun equal => ?_) (by simp)
    have failed : (Except.error (Fault.bridge f) : Except Fault Json) = .ok j := equal
    simp at failed
  | ok w =>
    constructor
    · intro equal
      exact congrArg Except.ok (Except.ok.inj equal)
    · intro equal
      exact congrArg Except.ok (Except.ok.inj equal)

theorem parts_fit {h : Heap} {args : List Value} {e : Answer.ErrorDraft}
    (found : parts h args = .ok e) : e.DataFits := by
  obtain ⟨c, -, found⟩ := Json.bind_eq_ok found
  obtain ⟨d, read, found⟩ := Json.bind_eq_ok found
  obtain rfl := Except.ok.inj found
  intro v present
  obtain rfl : d = some v := present
  unfold data at read
  split at read
  · simp at read
  · simp at read
  · obtain ⟨j, crossed, equal⟩ := Json.map_eq_ok read
    obtain rfl := Option.some.inj equal
    exact Bridge.toJson_fits (json_eq_ok_iff.mp crossed)

/-- Whatever a script calls the functions of the response with, what it declares fits. -/
theorem read_fits {f : Capability} {h : Heap} {args : List Value} {c : Declaration}
    (found : read f h args = some (.ok c)) : c.DataFits := by
  unfold read at found
  split at found
  · obtain ⟨j, crossed, rfl⟩ := Json.map_eq_ok (Option.some.inj found)
    exact Bridge.toJson_fits (json_eq_ok_iff.mp crossed)
  · obtain ⟨o, crossed, rfl⟩ := Json.map_eq_ok (Option.some.inj found)
    rintro v rfl
    unfold value? Argument.optional at crossed
    split at crossed
    · simp at crossed
    · obtain ⟨j, inside, equal⟩ := Json.map_eq_ok crossed
      obtain rfl : j = v := Option.some.inj equal
      exact Bridge.toJson_fits (json_eq_ok_iff.mp inside)
  · obtain ⟨e, read, rfl⟩ := Json.map_eq_ok (Option.some.inj found)
    exact parts_fit read
  · obtain ⟨e, read, rfl⟩ := Json.map_eq_ok (Option.some.inj found)
    exact parts_fit read
  · simp at found

end Guest.Declaration

end ScriptGate
