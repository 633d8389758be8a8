import Mathlib.Data.List.Nodup

/-!
# Keys held by the members of a list

Each member of a list may hold a key. The keys that are held, in order, change as the members do:
a member that still holds what it held leaves them as they are, and one that lets its key go takes
it out. Where no key is held twice, a key has one holder.
-/

namespace ScriptGate.Holding

variable {α β : Type} {held : α → Option β} {f : α → α} {members : List α} {n m : Nat} {x y : α}
  {key : β}

theorem keys_modify_same (same : ∀ x, members[n]? = some x → held (f x) = held x) :
    (members.modify n f).filterMap held = members.filterMap held := by
  induction members generalizing n with
  | nil => simp
  | cons first rest ih =>
    cases n with
    | zero =>
      have equal := same first rfl
      cases kept : held first <;> simp [equal, kept]
    | succ n =>
      have tail := ih (n := n) fun x found => same x (by simpa using found)
      cases kept : held first <;> simp [kept, tail]

/-- The keys after the member that held `key` has let it go. -/
theorem keys_modify_released [DecidableEq β] (nodup : (members.filterMap held).Nodup)
    (found : members[n]? = some x) (holds : held x = some key) (released : held (f x) = none) :
    (members.modify n f).filterMap held = (members.filterMap held).filter (· != key) := by
  induction members generalizing n with
  | nil => simp at found
  | cons first rest ih =>
    cases n with
    | zero =>
      obtain rfl : first = x := by simpa using found
      simp only [List.filterMap_cons, holds, List.nodup_cons] at nodup
      have others : (rest.filterMap held).filter (· != key) = rest.filterMap held :=
        List.filter_eq_self.mpr fun other member => by
          simp only [bne_iff_ne]
          rintro rfl
          exact nodup.1 member
      simp [holds, released, others]
    | succ n =>
      have behind : rest[n]? = some x := by simpa using found
      cases kept : held first with
      | none =>
        simp only [List.filterMap_cons, kept] at nodup
        simp [kept, ih nodup behind]
      | some other =>
        simp only [List.filterMap_cons, kept, List.nodup_cons] at nodup
        have different : other ≠ key := by
          rintro rfl
          exact nodup.1 (List.mem_filterMap.mpr ⟨x, List.mem_of_getElem? behind, holds⟩)
        simp [kept, ih nodup.2 behind, different]

theorem holder_unique (nodup : (members.filterMap held).Nodup) (first : members[n]? = some x)
    (second : members[m]? = some y) (holds : held x = some key) (also : held y = some key) :
    n = m := by
  have apart := List.pairwise_iff_getElem.mp (List.pairwise_filterMap.mp nodup)
  obtain ⟨bound, rfl⟩ := List.getElem?_eq_some_iff.mp first
  obtain ⟨bound', rfl⟩ := List.getElem?_eq_some_iff.mp second
  rcases Nat.lt_trichotomy n m with below | equal | above
  · exact absurd rfl (apart n m bound bound' below key holds key also)
  · exact equal
  · exact absurd rfl (apart m n bound' bound above key also key holds)

end ScriptGate.Holding
