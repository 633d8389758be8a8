import ScriptGate.Json.Record
import ScriptGate.Proofs.Json.Values

/-!
# What a reader gives fits

A value that is read in `depth` containers fits `depth`, whatever the text is. A record keeps what
the readers of its members keep.
-/

namespace ScriptGate.Json

theorem map_eq_ok {ε α β : Type} {f : α → β} {x : Except ε α} {y : β} (found : x.map f = .ok y) :
    ∃ a, x = .ok a ∧ f a = y := by
  cases x with
  | error e => simp [Except.map] at found
  | ok a => exact ⟨a, rfl, Except.ok.inj found⟩

theorem bind_eq_ok {ε α β : Type} {x : Except ε α} {f : α → Except ε β} {y : β}
    (found : (x >>= f) = .ok y) : ∃ a, x = .ok a ∧ f a = .ok y := by
  cases x with
  | error e => simp [bind, Except.bind] at found
  | ok a => exact ⟨a, rfl, found⟩

/-! ### Values -/

/-- What the four readers keep with the same fuel. -/
structure ReadersFit (fuel : Nat) : Prop where
  value : ∀ depth s v r, value fuel depth s = .ok (v, r) → Fits depth v
  items : ∀ depth first acc s v r, (∀ x ∈ acc, Fits depth x) →
    items fuel depth first acc s = .ok (v, r) → Fits (depth + 1) v
  members : ∀ depth first acc s v r, MembersFit depth acc →
    members fuel depth first acc s = .ok (v, r) → Fits (depth + 1) v
  member : ∀ depth acc s v r, MembersFit depth acc →
    member fuel depth acc s = .ok (v, r) → Fits (depth + 1) v

variable {fuel depth : Nat} {s r : Bytes} {v : Json}

theorem value_fits (fit : ReadersFit fuel) (read : value (fuel + 1) depth s = .ok (v, r)) :
    Fits depth v := by
  have word {ws t : Bytes} {w : Json} (fits : Fits depth w)
      (read : (expect ws t).map (w, ·) = .ok (v, r)) : Fits depth v := by
    obtain ⟨_, _, equal⟩ := map_eq_ok read
    obtain ⟨rfl, -⟩ := Prod.mk.inj equal
    exact fits
  rw [value] at read
  split at read
  · simp [fail] at read
  rename_i b t _
  split at read
  · exact word fits_null read
  split at read
  · exact word (fits_bool true) read
  split at read
  · exact word (fits_bool false) read
  split at read
  · split at read
    · obtain ⟨rfl, -⟩ := Prod.mk.inj (Except.ok.inj read)
      exact fits_str _
    · simp at read
  split at read
  · split at read
    · simp [failOn] at read
    · exact fit.items _ _ _ _ _ _ (by simp) read
  split at read
  · split at read
    · simp [failOn] at read
    · exact fit.members _ _ _ _ _ _ membersFit_nil read
  split at read
  · split at read
    · obtain ⟨rfl, -⟩ := Prod.mk.inj (Except.ok.inj read)
      exact fits_num _
    · simp at read
  · simp [failOn] at read

theorem items_fit (fit : ReadersFit fuel) {first : Bool} {acc : List Json}
    (before : ∀ x ∈ acc, Fits depth x)
    (read : items (fuel + 1) depth first acc s = .ok (v, r)) : Fits (depth + 1) v := by
  have go_on {t rest : Bytes} {x : Json} (found : value fuel depth t = .ok (x, rest))
      (read : items fuel depth false (x :: acc) rest = .ok (v, r)) : Fits (depth + 1) v := by
    refine fit.items _ _ _ _ _ _ (fun y member => ?_) read
    rcases List.mem_cons.mp member with rfl | old
    · exact fit.value _ _ _ _ found
    · exact before y old
  rw [items] at read
  split at read
  · simp [fail] at read
  split at read
  · obtain ⟨rfl, -⟩ := Prod.mk.inj (Except.ok.inj read)
    exact fits_arr_iff.mpr fun x member => before x (List.mem_reverse.mp member)
  split at read
  · split at read
    · rename_i found
      exact go_on found read
    · simp at read
  split at read
  · split at read
    · simp [fail] at read
    split at read
    · simp [failOn] at read
    · split at read
      · rename_i found
        exact go_on found read
      · simp at read
  · simp [failOn] at read

theorem members_fit (fit : ReadersFit fuel) {first : Bool} {acc : List (String × Json)}
    (before : MembersFit depth acc)
    (read : members (fuel + 1) depth first acc s = .ok (v, r)) : Fits (depth + 1) v := by
  rw [members] at read
  split at read
  · simp [fail] at read
  split at read
  · obtain ⟨rfl, -⟩ := Prod.mk.inj (Except.ok.inj read)
    exact fits_obj_iff.mpr before
  split at read
  · exact fit.member _ _ _ _ _ before read
  split at read
  · split at read
    · simp [fail] at read
    split at read
    · simp [failOn] at read
    · exact fit.member _ _ _ _ _ before read
  · simp [failOn] at read

theorem member_fits (fit : ReadersFit fuel) {acc : List (String × Json)}
    (before : MembersFit depth acc) (read : member (fuel + 1) depth acc s = .ok (v, r)) :
    Fits (depth + 1) v := by
  rw [member.eq_def] at read
  simp only at read
  split at read
  · split at read
    · simp at read
    split at read
    · simp [fail] at read
    split at read
    · split at read
      · rename_i x _ found
        exact fit.members _ _ _ _ _ _
          (membersFit_insert before (fit.value _ _ _ _ found)) read
      · simp at read
    · simp [failOn] at read
  · simp [failOn] at read

theorem readersFit (fuel : Nat) : ReadersFit fuel := by
  induction fuel with
  | zero =>
    refine ⟨fun _ _ _ _ read => ?_, fun _ _ _ _ _ _ _ read => ?_, fun _ _ _ _ _ _ _ read => ?_,
      fun _ _ _ _ _ _ read => ?_⟩
    · simp [value, fail] at read
    · simp [items, fail] at read
    · simp [members, fail] at read
    · simp [member, fail] at read
  | succ fuel ih =>
    exact ⟨fun _ _ _ _ read => value_fits ih read,
      fun _ _ _ _ _ _ before read => items_fit ih before read,
      fun _ _ _ _ _ _ before read => members_fit ih before read,
      fun _ _ _ _ _ before read => member_fits ih before read⟩

theorem fits_of_value (read : value fuel depth s = .ok (v, r)) : Fits depth v :=
  (readersFit fuel).value depth s v r read

theorem fits_of_parse (read : parse s = .ok v) : Fits maxDepth v := by
  unfold parse at read
  split at read
  · rename_i x t found
    unfold finish at read
    split at read
    · obtain rfl := Except.ok.inj read
      exact fits_of_value found
    · simp [failOn] at read
  · simp at read

theorem fits_of_optional {x : Option Json} (read : optional (value fuel depth) s = .ok (x, r))
    (found : x = some v) : Fits depth v := by
  subst found
  unfold optional at read
  split at read
  · obtain ⟨_, _, equal⟩ := map_eq_ok read
    simp at equal
  · split at read
    · rename_i w t value_read
      obtain rfl : w = v := by simpa using (Prod.mk.inj (Except.ok.inj read)).1
      exact fits_of_value value_read
    · simp at read

/-! ### Records -/

section Records

variable {σ : Type} {fields : List (Field σ)} {P : σ → Prop} {st last : σ}

/-- Every member leaves what is kept as it is. -/
def Keeps (fields : List (Field σ)) (depth : Nat) (P : σ → Prop) : Prop :=
  ∀ f ∈ fields, ∀ fuel st s next r, P st → f.read fuel depth st s = .ok (next, r) → P next

theorem recordMembers_succ_keep {first : Bool}
    (member : ∀ st s last r, P st → recordMember fields fuel depth st s = .ok (last, r) → P last)
    (start : P st) (read : recordMembers fields (fuel + 1) depth first st s = .ok (last, r)) :
    P last := by
  rw [recordMembers] at read
  split at read
  · simp [fail] at read
  split at read
  · obtain ⟨rfl, -⟩ := Prod.mk.inj (Except.ok.inj read)
    exact start
  split at read
  · exact member _ _ _ _ start read
  split at read
  · split at read
    · simp [fail] at read
    split at read
    · simp [failOn] at read
    · exact member _ _ _ _ start read
  · simp [failOn] at read

theorem recordMember_succ_keep (keeps : Keeps fields depth P)
    (members : ∀ st s last r, P st →
      recordMembers fields fuel depth false st s = .ok (last, r) → P last)
    (start : P st) (read : recordMember fields (fuel + 1) depth st s = .ok (last, r)) :
    P last := by
  rw [recordMember.eq_def] at read
  simp only at read
  split at read
  · split at read
    · simp at read
    split at read
    · rename_i f known
      split at read
      · simp [fail] at read
      split at read
      · simp [fail] at read
      split at read
      · split at read
        · rename_i found
          have kept := keeps f (List.mem_of_find?_eq_some known) _ _ _ _ _ start found
          exact members _ _ _ _ kept read
        · simp at read
      · simp [failOn] at read
    -- A member that is not known is passed over.
    · split at read
      · simp [fail] at read
      split at read
      · split at read
        · exact members _ _ _ _ start read
        · simp at read
      · simp [failOn] at read
  · simp [failOn] at read

theorem recordMembers_keep (keeps : Keeps fields depth P) :
    (∀ first st s last r, P st → recordMembers fields fuel depth first st s = .ok (last, r) →
      P last) ∧
    ∀ st s last r, P st → recordMember fields fuel depth st s = .ok (last, r) → P last := by
  induction fuel with
  | zero => simp [recordMembers, recordMember, fail]
  | succ fuel ih =>
    obtain ⟨members, member⟩ := ih
    exact ⟨fun _ _ _ _ _ start read => recordMembers_succ_keep member start read,
      fun _ _ _ _ start read => recordMember_succ_keep keeps (members false) start read⟩

theorem recordItems_keep (keeps : Keeps fields depth P) {first : Bool} (start : P st)
    (read : recordItems fuel depth first st s fields = .ok (last, r)) : P last := by
  induction fields generalizing first st s with
  | nil =>
    rw [recordItems] at read
    split at read
    · simp [fail] at read
    split at read
    · obtain ⟨rfl, -⟩ := Prod.mk.inj (Except.ok.inj read)
      exact start
    split at read
    · split at read <;> simp [failOn] at read
    · simp [failOn] at read
  | cons f others ih =>
    rw [recordItems] at read
    split at read
    · simp [fail] at read
    split at read
    · obtain ⟨rfl, -⟩ := Prod.mk.inj (Except.ok.inj read)
      exact start
    simp only at read
    split at read
    · simp at read
    split at read
    · rename_i found
      have kept := keeps f (by simp) _ _ _ _ _ start found
      exact ih (fun g member => keeps g (List.mem_cons_of_mem _ member)) kept read
    · simp at read

/-- What every member keeps, a record keeps. -/
theorem record_keeps (keeps : Keeps fields depth P) (start : P st)
    (read : record fields fuel (depth + 1) st s = .ok (last, r)) : P last := by
  rw [record] at read
  split at read
  · simp [fail] at read
  split at read
  · exact (recordMembers_keep keeps).1 _ _ _ _ _ start read
  split at read
  · exact recordItems_keep keeps start read
  · simp [failOn] at read

end Records

end ScriptGate.Json
