import ScriptGate.Json.Basic
import Mathlib.Data.List.Induction

/-!
# Values that fit

A value fits `n` if its objects are in key order and at most `n` containers nest in it. That is what
a reader gives, what a guest can hand over, and what comes back unchanged from its text.
-/

namespace ScriptGate.Json

variable {n : Nat} {key : String} {v : Json} {xs : List Json} {ms : List (String × Json)}

/-- A value in key order in which at most `n` containers nest. -/
structure Fits (n : Nat) (v : Json) : Prop where
  ordered : v.Ordered
  depth_le : v.depth ≤ n

def Sorted (ms : List (String × Json)) : Prop := (ms.map Prod.fst).Pairwise (· < ·)

/-- The members of an object that fits one container more. -/
structure MembersFit (n : Nat) (ms : List (String × Json)) : Prop where
  sorted : Sorted ms
  fits : ∀ m ∈ ms, Fits n m.2

theorem orderedItems_iff : OrderedItems xs ↔ ∀ x ∈ xs, x.Ordered := by
  induction xs with
  | nil => simp [OrderedItems]
  | cons x rest ih => simp [OrderedItems, ih]

theorem orderedMembers_iff : OrderedMembers ms ↔ ∀ m ∈ ms, m.2.Ordered := by
  induction ms with
  | nil => simp [OrderedMembers]
  | cons m rest ih =>
    obtain ⟨k, x⟩ := m
    simp [OrderedMembers, ih]

theorem depthItems_le_iff : depthItems xs ≤ n ↔ ∀ x ∈ xs, x.depth ≤ n := by
  induction xs with
  | nil => simp [depthItems]
  | cons x rest ih => rw [depthItems, Nat.max_le, ih, List.forall_mem_cons]

theorem depthMembers_le_iff : depthMembers ms ≤ n ↔ ∀ m ∈ ms, m.2.depth ≤ n := by
  induction ms with
  | nil => simp [depthMembers]
  | cons m rest ih =>
    obtain ⟨k, x⟩ := m
    rw [depthMembers, Nat.max_le, ih, List.forall_mem_cons]

theorem Fits.mono {m : Nat} (fits : Fits n v) (le : n ≤ m) : Fits m v :=
  ⟨fits.ordered, Nat.le_trans fits.depth_le le⟩

theorem fits_arr_iff : Fits (n + 1) (.arr xs) ↔ ∀ x ∈ xs, Fits n x := by
  constructor
  · rintro ⟨ordered, depth_le⟩ x member
    rw [Ordered, orderedItems_iff] at ordered
    rw [depth, Nat.add_le_add_iff_right, depthItems_le_iff] at depth_le
    exact ⟨ordered x member, depth_le x member⟩
  · intro fits
    refine ⟨?_, ?_⟩
    · rw [Ordered, orderedItems_iff]
      exact fun x member => (fits x member).ordered
    · rw [depth, Nat.add_le_add_iff_right, depthItems_le_iff]
      exact fun x member => (fits x member).depth_le

theorem fits_obj_iff : Fits (n + 1) (.obj ms) ↔ MembersFit n ms := by
  constructor
  · rintro ⟨⟨sorted, ordered⟩, depth_le⟩
    rw [orderedMembers_iff] at ordered
    rw [depth, Nat.add_le_add_iff_right, depthMembers_le_iff] at depth_le
    exact ⟨sorted, fun m member => ⟨ordered m member, depth_le m member⟩⟩
  · rintro ⟨sorted, fits⟩
    refine ⟨⟨sorted, ?_⟩, ?_⟩
    · rw [orderedMembers_iff]
      exact fun m member => (fits m member).ordered
    · rw [depth, Nat.add_le_add_iff_right, depthMembers_le_iff]
      exact fun m member => (fits m member).depth_le

theorem not_fits_zero_arr : ¬ Fits 0 (.arr xs) := fun fits => by
  have := fits.depth_le
  simp [depth] at this

theorem not_fits_zero_obj : ¬ Fits 0 (.obj ms) := fun fits => by
  have := fits.depth_le
  simp [depth] at this

@[simp] theorem fits_null : Fits n .null := ⟨trivial, Nat.zero_le n⟩

@[simp] theorem fits_bool (b : Bool) : Fits n (.bool b) := ⟨trivial, Nat.zero_le n⟩

@[simp] theorem fits_num (x : Number) : Fits n (.num x) := ⟨trivial, Nat.zero_le n⟩

@[simp] theorem fits_str (s : String) : Fits n (.str s) := ⟨trivial, Nat.zero_le n⟩

@[simp] theorem fits_int (i : Int) : Fits n (.int i) := by
  unfold int
  split <;> exact fits_num _

@[simp] theorem fits_float (x : Binary64) : Fits n (.float x) := by
  unfold float
  split
  · exact fits_num _
  · exact fits_null

/-! ### Setting members -/

@[simp] theorem membersFit_nil : MembersFit n [] := ⟨List.Pairwise.nil, by simp⟩

theorem mem_of_mem_insert {m : String × Json} (member : m ∈ insert key v ms) :
    m = (key, v) ∨ m ∈ ms := by
  induction ms with
  | nil => simpa [insert] using member
  | cons first rest ih =>
    obtain ⟨k, x⟩ := first
    simp only [insert] at member
    split at member
    · simpa using member
    · split at member
      · rcases List.mem_cons.mp member with new | old
        · exact .inl new
        · exact .inr (List.mem_cons_of_mem _ old)
      · rcases List.mem_cons.mp member with first | later
        · exact .inr (first ▸ List.mem_cons_self)
        · exact (ih later).imp_right (List.mem_cons_of_mem _)

theorem sorted_cons {m : String × Json} :
    Sorted (m :: ms) ↔ (∀ other ∈ ms, m.1 < other.1) ∧ Sorted ms := by
  simp [Sorted]

theorem sorted_insert (sorted : Sorted ms) : Sorted (insert key v ms) := by
  induction ms with
  | nil => simp [insert, Sorted]
  | cons first rest ih =>
    obtain ⟨k, x⟩ := first
    obtain ⟨below, tail⟩ := sorted_cons.mp sorted
    simp only [insert]
    split
    · rename_i less
      refine sorted_cons.mpr ⟨fun other member => ?_, sorted⟩
      rcases List.mem_cons.mp member with rfl | later
      · exact less
      · exact String.lt_trans less (below other later)
    · rename_i notLess
      split
      · rename_i equal
        subst equal
        exact sorted_cons.mpr ⟨below, tail⟩
      · rename_i different
        have greater : k < key := by
          rcases Std.lt_trichotomy key k with less | equal | greater
          · exact absurd less notLess
          · exact absurd equal different
          · exact greater
        refine sorted_cons.mpr ⟨fun other member => ?_, ih tail⟩
        rcases mem_of_mem_insert member with rfl | old
        · exact greater
        · exact below other old

theorem membersFit_insert (members : MembersFit n ms) (fits : Fits n v) :
    MembersFit n (insert key v ms) := by
  refine ⟨sorted_insert members.sorted, fun m member => ?_⟩
  rcases mem_of_mem_insert member with rfl | old
  · exact fits
  · exact members.fits m old

theorem insert_last (last : ∀ m ∈ ms, m.1 < key) : insert key v ms = ms ++ [(key, v)] := by
  induction ms with
  | nil => rfl
  | cons first rest ih =>
    obtain ⟨k, x⟩ := first
    have less : k < key := last (k, x) (by simp)
    have notLess : ¬ key < k := fun greater => String.lt_irrefl k (String.lt_trans less greater)
    have different : key ≠ k := fun equal => String.lt_irrefl k (equal ▸ less)
    simp only [insert, notLess, different, if_false, List.cons_append]
    rw [ih fun m member => last m (List.mem_cons_of_mem _ member)]

/-- Members that are set in key order line up. -/
theorem ofPairs_of_sorted (sorted : Sorted ms) : ofPairs ms = ms := by
  suffices general : ∀ done, Sorted (done ++ ms) →
      ms.foldl (fun ms p => insert p.1 p.2 ms) done = done ++ ms from general [] sorted
  induction ms with
  | nil => simp
  | cons m rest ih =>
    intro done sorted
    have last : ∀ other ∈ done, other.1 < m.1 := by
      intro other member
      rw [Sorted, List.map_append, List.pairwise_append] at sorted
      exact sorted.2.2 other.1 (List.mem_map_of_mem member) m.1 (by simp)
    have moved : Sorted ((done ++ [m]) ++ rest) := by simpa using sorted
    have tail : Sorted rest := by
      rw [Sorted, List.map_append, List.pairwise_append] at sorted
      exact (sorted_cons.mp sorted.2.1).2
    rw [List.foldl_cons, insert_last last, ih tail _ moved]
    simp

theorem fits_of_find? (members : MembersFit n ms) (found : find? key ms = some v) :
    Fits n v := by
  induction ms with
  | nil => simp [find?] at found
  | cons first rest ih =>
    obtain ⟨k, x⟩ := first
    simp only [find?] at found
    split at found
    · obtain rfl : x = v := Option.some.inj found
      exact members.fits (k, x) (by simp)
    · exact ih ⟨(sorted_cons.mp members.sorted).2,
        fun m member => members.fits m (List.mem_cons_of_mem _ member)⟩ found

/-! ### Looking members up -/

@[simp] theorem find?_nil : find? key [] = none := rfl

theorem find?_cons (m : String × Json) (ms : List (String × Json)) :
    find? key (m :: ms) = if m.1 = key then some m.2 else find? key ms := rfl

theorem find?_eq_none (apart : ∀ m ∈ ms, m.1 ≠ key) : find? key ms = none := by
  induction ms with
  | nil => rfl
  | cons m rest ih =>
    rw [find?_cons, if_neg (apart m (by simp))]
    exact ih fun other member => apart other (List.mem_cons_of_mem _ member)

theorem find?_insert (key added : String) (v : Json) (ms : List (String × Json)) :
    find? key (insert added v ms) = if added = key then some v else find? key ms := by
  induction ms with
  | nil => simp [insert, find?_cons]
  | cons m rest ih =>
    simp only [insert]
    split
    · simp only [find?_cons]
    · split
      · rename_i equal
        simp only [find?_cons, ← equal]
        split <;> rfl
      · rename_i different
        simp only [find?_cons, ih]
        by_cases first : m.1 = key
        · have other : added ≠ key := fun equal => different (equal.trans first.symm)
          simp [first, other]
        · simp [first]

theorem ne_of_sorted {m : String × Json} (sorted : Sorted (m :: ms)) :
    ∀ other ∈ ms, other.1 ≠ m.1 := fun other member equal =>
  String.lt_irrefl m.1 (equal ▸ (sorted_cons.mp sorted).1 other member)

/-- Members that are set one after the other: what is found is what was set, else what was there. -/
theorem find?_foldl_insert (sorted : Sorted ms) (pending : List (String × Json)) :
    find? key (ms.foldl (fun acc m => insert m.1 m.2 acc) pending) =
      (find? key ms).or (find? key pending) := by
  induction ms generalizing pending with
  | nil => rfl
  | cons m rest ih =>
    rw [List.foldl_cons, ih (sorted_cons.mp sorted).2, find?_insert, find?_cons]
    by_cases first : m.1 = key
    · rw [find?_eq_none (first ▸ ne_of_sorted sorted)]
      simp [first]
    · simp [first]

theorem sorted_foldl_insert (ms : List (String × Json)) {pending : List (String × Json)}
    (sorted : Sorted pending) : Sorted (ms.foldl (fun acc m => insert m.1 m.2 acc) pending) := by
  induction ms generalizing pending with
  | nil => exact sorted
  | cons m rest ih => exact ih (sorted_insert sorted)

/-- Members in key order are known by what is found among them. -/
theorem sorted_ext {ns : List (String × Json)} (first : Sorted ms) (second : Sorted ns)
    (same : ∀ key, find? key ms = find? key ns) : ms = ns := by
  -- A first key that is missing on the other side would be found on one side only.
  have missing {m n : String × Json} {ns : List (String × Json)} (sorted : Sorted (n :: ns))
      (below : m.1 < n.1) : find? m.1 (n :: ns) = none := by
    refine find?_eq_none fun other member equal => ?_
    rcases List.mem_cons.mp member with rfl | later
    · exact String.lt_irrefl _ (equal ▸ below)
    · have above := (sorted_cons.mp sorted).1 other later
      exact String.lt_irrefl _ (String.lt_trans (equal ▸ above) below)
  induction ms generalizing ns with
  | nil =>
    cases ns with
    | nil => rfl
    | cons n ns => simpa [find?_cons] using same n.1
  | cons m ms ih =>
    cases ns with
    | nil => simpa [find?_cons] using same m.1
    | cons n ns =>
      have at_m := same m.1
      have at_n := same n.1
      rcases Std.lt_trichotomy m.1 n.1 with less | equal | greater
      · rw [missing second less, find?_cons, if_pos rfl] at at_m
        exact absurd at_m (by simp)
      · rw [find?_cons, if_pos rfl, find?_cons, if_pos equal.symm] at at_m
        obtain rfl : m = n := Prod.ext equal (Option.some.inj at_m)
        refine congrArg _ (ih (sorted_cons.mp first).2 (sorted_cons.mp second).2 fun key => ?_)
        by_cases head : m.1 = key
        · subst head
          rw [find?_eq_none (ne_of_sorted first), find?_eq_none (ne_of_sorted second)]
        · simpa [find?_cons, head] using same key
      · rw [missing first greater, find?_cons, if_pos rfl] at at_n
        exact absurd at_n.symm (by simp)

/-! ### Members from pairs -/

theorem ofPairs_append (ps : List (String × Json)) (p : String × Json) :
    ofPairs (ps ++ [p]) = insert p.1 p.2 (ofPairs ps) := by
  simp [ofPairs]

theorem sorted_ofPairs (ps : List (String × Json)) : Sorted (ofPairs ps) :=
  sorted_foldl_insert ps List.Pairwise.nil

/-- Of pairs with one key the last one counts. -/
theorem find?_ofPairs (ps : List (String × Json)) :
    find? key (ofPairs ps) = (ps.reverse.find? (·.1 == key)).map Prod.snd := by
  induction ps using List.reverseRecOn with
  | nil => rfl
  | append_singleton ps p ih =>
    rw [ofPairs_append, find?_insert, ih, List.reverse_append]
    by_cases same : p.1 = key
    · simp [same]
    · simp [same]

theorem insert_perm (new : ∀ m ∈ ms, m.1 ≠ key) : (insert key v ms).Perm ((key, v) :: ms) := by
  induction ms with
  | nil => exact List.Perm.refl _
  | cons m rest ih =>
    simp only [insert]
    split
    · exact List.Perm.refl _
    · rw [if_neg fun equal => new m (by simp) equal.symm]
      have others := ih fun other member => new other (List.mem_cons_of_mem _ member)
      exact (others.cons m).trans (List.Perm.swap _ _ _)

/-- Pairs with different keys are all members. -/
theorem ofPairs_perm {ps : List (String × Json)} (nodup : (ps.map Prod.fst).Nodup) :
    (ofPairs ps).Perm ps := by
  induction ps using List.reverseRecOn with
  | nil => exact List.Perm.refl _
  | append_singleton ps p ih =>
    rw [List.map_append, List.nodup_append] at nodup
    have before := ih nodup.1
    rw [ofPairs_append]
    refine (insert_perm fun m member equal => ?_).trans ((before.cons p).trans ?_)
    · have listed := List.mem_map_of_mem (f := Prod.fst) (before.mem_iff.mp member)
      exact nodup.2.2 m.1 listed p.1 (by simp) equal
    · exact (List.perm_append_singleton p ps).symm

/-! ### The numbers in a value -/

mutual

def numbers : Json → List Number
  | .num x => [x]
  | .arr items => numbersIn items
  | .obj members => numbersOf members
  | .null | .bool _ | .str _ => []

def numbersIn : List Json → List Number
  | [] => []
  | x :: rest => numbers x ++ numbersIn rest

def numbersOf : List (String × Json) → List Number
  | [] => []
  | (_, x) :: rest => numbers x ++ numbersOf rest

end

end ScriptGate.Json
