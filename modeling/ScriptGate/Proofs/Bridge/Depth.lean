import ScriptGate.Proofs.Bridge.Orders
import ScriptGate.Proofs.Guest.Declaration

/-!
# How deep a guest value nests

A guest value is a graph: a table may contain itself, or one table stand in several places. A value
is given up exactly where a chain of tables is longer than the levels that are left, so a cycle does
no harm that runs through an entry which is not converted.
-/

namespace ScriptGate.Bridge

open Lua (Value Heap Table)

variable {h : Heap} {place n m : Nat} {v w : Value}

/-! ### Where tables lead -/

/-- The keys whose entries are converted. -/
def IsMemberKey : Value → Prop
  | .str _ | .number _ | .bool _ => True
  | _ => False

theorem isMemberKey_iff {key : Value} : IsMemberKey key ↔ ∃ text, keyText? key = some text := by
  cases key with
  | number x => cases x <;> simp [IsMemberKey, keyText?]
  | _ => simp [IsMemberKey, keyText?]

/-- A table leads to the items of a marked array, and of any other table to the values whose keys
are strings, numbers or booleans. -/
inductive Leads (h : Heap) (place : Nat) : Value → Prop where
  | item {i : Nat} (marked : isArray h (h.table place) = true) (first : 1 ≤ i)
      (last : i ≤ (h.table place).length) : Leads h place ((h.table place).getNat i)
  | entry {key w : Value} (plain : isArray h (h.table place) = false) (isKey : IsMemberKey key)
      (there : (key, w) ∈ (h.table place).entries) : Leads h place w

/-- A value at which a chain of tables begins, each of which leads to the next one. -/
inductive Chain (h : Heap) : Nat → Value → Prop where
  | last (place : Nat) : Chain h 1 (.table place)
  | next {place n : Nat} {w : Value} (leads : Leads h place w) (rest : Chain h n w) :
      Chain h (n + 1) (.table place)

theorem Chain.shorten (chain : Chain h n v) (positive : 0 < m) (shorter : m ≤ n) :
    Chain h m v := by
  induction chain generalizing m with
  | last place =>
    obtain rfl : m = 1 := by omega
    exact .last place
  | @next place n w leads rest ih =>
    obtain ⟨m, rfl⟩ : ∃ k, m = k + 1 := ⟨m - 1, by omega⟩
    cases m with
    | zero => exact .last place
    | succ m => exact .next leads (ih (Nat.succ_pos m) (by omega))

theorem chain_longer_iff : (∃ m, n < m ∧ Chain h m v) ↔ Chain h (n + 1) v := by
  constructor
  · rintro ⟨m, longer, chain⟩
    exact chain.shorten (Nat.succ_pos n) longer
  · intro chain
    exact ⟨n + 1, Nat.lt_succ_self n, chain⟩

theorem chain_succ_table_iff :
    Chain h (n + 2) (.table place) ↔ ∃ w, Leads h place w ∧ Chain h (n + 1) w := by
  constructor
  · rintro (_ | ⟨leads, rest⟩)
    exact ⟨_, leads, rest⟩
  · rintro ⟨w, leads, rest⟩
    exact .next leads rest

/-- A value at which a chain of more than 64 tables begins. -/
def IsTooDeep (h : Heap) (v : Value) : Prop := ∃ n, 64 < n ∧ Chain h n v

/-! ### One table -/

theorem ok_of_mapM {α β ε : Type} {f : α → Except ε β} {xs : List α} {ys : List β}
    (mapped : xs.mapM f = .ok ys) {x : α} (member : x ∈ xs) : ∃ y, f x = .ok y := by
  induction xs generalizing ys with
  | nil => cases member
  | cons first rest ih =>
    rw [List.mapM_cons] at mapped
    obtain ⟨y, one, mapped⟩ := Json.bind_eq_ok mapped
    obtain ⟨others, later, -⟩ := Json.bind_eq_ok mapped
    rcases List.mem_cons.mp member with rfl | behind
    · exact ⟨y, one⟩
    · exact ih later behind

variable {convert : Value → Except Fault Json} {es : List (Value × Value)}

/-- Entries that fill a list are all in it: no key is there twice to take the place of another. -/
theorem mem_of_dense? (nodup : (es.map Prod.fst).Nodup) {items : List Value}
    (dense : dense? es = some items) {e : Value × Value} (member : e ∈ es) : e.2 ∈ items := by
  unfold dense? at dense
  dsimp only at dense
  split at dense
  · rename_i condition
    obtain rfl := Option.some.inj dense
    have all : ∀ e ∈ es, (position? es.length e.1).isSome := List.all_eq_true.mp condition.2
    obtain ⟨i, at_i⟩ := Option.isSome_iff_exists.mp (all e member)
    have inside : (position? es.length e.1).getD 0 < es.length := by
      rw [at_i, Option.getD_some]
      exact (position?_eq_some_iff.mp at_i).2.1
    have filled := getElem?_foldl_set (Array.replicate es.length Value.nil)
      (nodup_positions nodup all) member (by simpa using inside)
    exact Array.mem_toList_iff.mpr (Array.mem_of_getElem? filled)
  · cases dense

theorem ok_of_entries (nodup : (es.map Prod.fst).Nodup) {j : Json}
    (read : (Contents.entries es).toJson convert = .ok j) {key : Value} (isKey : IsMemberKey key)
    (there : (key, w) ∈ es) : ∃ j, convert w = .ok j := by
  rw [Contents.toJson] at read
  split at read
  · rename_i items dense
    obtain ⟨js, mapped, -⟩ := Json.bind_eq_ok read
    exact ok_of_mapM mapped (mem_of_dense? nodup dense there)
  · obtain ⟨ms, made, -⟩ := Json.bind_eq_ok read
    rw [members_eq] at made
    obtain ⟨ps, mapped, -⟩ := Json.bind_eq_ok made
    obtain ⟨text, has_text⟩ := isMemberKey_iff.mp isKey
    obtain ⟨p, one⟩ := ok_of_mapM mapped (mem_named.mpr ⟨key, there, has_text⟩)
    obtain ⟨j, found, -⟩ := Json.bind_eq_ok one
    exact ⟨j, found⟩

theorem leads_of_isRead (sound : (h.table place).Sound) (isRead : IsRead h (h.table place) w) :
    Leads h place w := by
  cases mark : isArray h (h.table place) with
  | true =>
    rw [IsRead, if_pos mark] at isRead
    obtain ⟨i, inside, rfl⟩ := isRead
    exact .item mark (Nat.succ_pos i) inside
  | false =>
    rw [IsRead, if_neg (by simp [mark])] at isRead
    obtain ⟨present, key, text, has_text, value⟩ := isRead
    have there := (sound.visits_entries.mem_iff key w).mpr ⟨present, value⟩
    exact .entry mark (isMemberKey_iff.mpr ⟨text, has_text⟩) there

/-- A table is converted exactly if every value is to which it leads. -/
theorem toJson_contents_ok_iff (sound : ∀ place, (h.table place).Sound) :
    (∃ j, (contents h place).toJson convert = .ok j) ↔
      ∀ w, Leads h place w → ∃ j, convert w = .ok j := by
  constructor
  · rintro ⟨j, read⟩ w leads
    unfold contents at read
    cases leads with
    | @item i marked first last =>
      simp only [marked, if_true] at read
      obtain ⟨js, mapped, -⟩ := Json.bind_eq_ok read
      have listed : (h.table place).getNat i ∈
          (List.range (h.table place).length).map fun i => (h.table place).getNat (i + 1) :=
        List.mem_map.mpr ⟨i - 1, List.mem_range.mpr (by omega), by rw [Nat.sub_add_cancel first]⟩
      exact ok_of_mapM mapped listed
    | entry plain isKey there =>
      simp only [plain, Bool.false_eq_true, if_false] at read
      exact ok_of_entries (sound place).visits_entries.nodup read isKey there
  · intro all
    obtain ⟨j, read, -⟩ := becomes_of_shows (shows_contents sound) fun w isRead =>
      all w (leads_of_isRead (sound place) isRead)
    exact ⟨j, read⟩

/-! ### Whole values -/

theorem no_chain_of_no_table (no_table : ∀ place, v ≠ .table place) : ¬ Chain h n v := by
  intro chain
  cases chain with
  | last place => exact no_table place rfl
  | next => exact no_table _ rfl

theorem not_tooDeep_of_no_table (no_table : ∀ place, v ≠ .table place) : ¬ IsTooDeep h v :=
  fun ⟨_, _, chain⟩ => no_chain_of_no_table no_table chain

/-- A value is read in `n` levels exactly if no chain of more than `n` tables begins at it. -/
theorem read_ok_iff (sound : ∀ place, (h.table place).Sound) :
    (∃ j, read (contents h) n v = .ok j) ↔ ¬ Chain h (n + 1) v := by
  -- The induction is on the levels that are left: a table takes one, and where it leads is up to
  -- the others. How large the heap is plays no part.
  induction n generalizing v with
  | zero =>
    by_cases table : ∃ place, v = .table place
    · obtain ⟨place, rfl⟩ := table
      have fails : ¬ ∃ j, read (contents h) 0 (.table place) = .ok j := by
        rintro ⟨j, found⟩
        cases found
      exact iff_of_false fails (not_not_intro (.last place))
    · rw [not_exists] at table
      obtain ⟨j, found, -⟩ := read_of_no_table (n := 0) (contents h) (contents h) table
      exact iff_of_true ⟨j, found⟩ (no_chain_of_no_table table)
  | succ n ih =>
    by_cases table : ∃ place, v = .table place
    · obtain ⟨place, rfl⟩ := table
      rw [read, toJson_contents_ok_iff sound, chain_succ_table_iff, not_exists]
      refine forall_congr' fun w => ?_
      rw [ih, not_and]
    · rw [not_exists] at table
      obtain ⟨j, found, -⟩ := read_of_no_table (n := n + 1) (contents h) (contents h) table
      exact iff_of_true ⟨j, found⟩ (no_chain_of_no_table table)

theorem toJson_ok_iff (sound : ∀ place, (h.table place).Sound) :
    (∃ j, toJson h v = .ok j) ↔ ¬ IsTooDeep h v := by
  rw [IsTooDeep, chain_longer_iff]
  exact read_ok_iff sound

theorem toJson_error_iff (sound : ∀ place, (h.table place).Sound) {f : Fault} :
    toJson h v = .error f ↔ IsTooDeep h v := by
  rw [← not_iff_not, ← toJson_ok_iff sound]
  cases toJson h v <;> simp

theorem json_error_iff (sound : ∀ place, (h.table place).Sound) {fault : Guest.Fault} :
    Guest.Argument.json h v = .error fault ↔ fault = .bridge .tooDeep ∧ IsTooDeep h v := by
  rw [← toJson_error_iff sound (f := .tooDeep), Guest.Argument.json]
  cases toJson h v with
  | error given_up =>
    cases given_up
    simp [Except.mapError, eq_comm]
  | ok j => simp [Except.mapError]

/-- Reading a value always ends. It is given up, as too deep, exactly where a chain of more than 64
tables begins at it, and what is made of it otherwise nests at most 64 containers. -/
theorem toJson_gives_up_iff_chain (sound : ∀ place, (h.table place).Sound) (v : Value) :
    (toJson h v = .error .tooDeep ↔ ∃ n, 64 < n ∧ Chain h n v) ∧
      (toJson h v = .error .tooDeep ∨ ∃ j, toJson h v = .ok j ∧ j.depth ≤ 64) ∧
      Fault.tooDeep.message = "value nesting exceeds 64 levels" := by
  have ok_iff := toJson_ok_iff sound (v := v)
  refine ⟨?_, ?_, by decide⟩
  · cases result : toJson h v with
    | error fault =>
      have fails : ¬ ∃ j, toJson h v = .ok j := by simp [result]
      exact iff_of_true rfl (not_not.mp (ok_iff.not.mp fails))
    | ok j => exact iff_of_false (by simp) (ok_iff.mp ⟨j, result⟩)
  · cases result : toJson h v with
    | error fault => exact .inl rfl
    | ok j => exact .inr ⟨j, rfl, (toJson_fits result).depth_le⟩

/-- Two tables that contain themselves: the first under a text, and the second under a table, which
is no key that is converted. -/
def loops : Heap :=
  { tables := #[.ofEntries [(.text "self", .table 0)], .ofEntries [(.table 0, .table 1)]] }

theorem sound_loops : ∀ place, (loops.table place).Sound
  | 0 => Table.sound_ofEntries _
  | 1 => Table.sound_ofEntries _
  | place + 2 => by
    have empty : loops.table (place + 2) = {} := by simp [loops, Heap.table]
    rw [empty]
    exact Table.sound_empty

theorem toJson_gives_up_iff_chain_of_loops :
    (∃ n, 64 < n ∧ Chain loops n (.table 0)) ∧ toJson loops (.table 0) = .error .tooDeep ∧
      Leads loops 0 (.table 0) ∧ (Value.table 0, Value.table 1) ∈ (loops.table 1).entries ∧
      (¬ ∃ n, 64 < n ∧ Chain loops n (.table 1)) ∧ toJson loops (.table 1) = .ok (.obj []) := by
  have leads : Leads loops 0 (.table 0) := by
    have there : (Value.text "self", Value.table 0) ∈ (loops.table 0).entries := by decide +kernel
    have isKey : IsMemberKey (.text "self") := trivial
    exact .entry (by decide +kernel) isKey there
  have chain (n : Nat) : Chain loops (n + 1) (.table 0) := by
    induction n with
    | zero => exact .last 0
    | succ n ih => exact .next leads ih
  have given_up := (toJson_gives_up_iff_chain sound_loops (.table 0)).1
  have harmless := (toJson_gives_up_iff_chain sound_loops (.table 1)).1
  have converted : toJson loops (.table 1) = .ok (.obj []) := by decide +kernel
  have long : ∃ n, 64 < n ∧ Chain loops n (.table 0) := ⟨65, by decide, chain 64⟩
  refine ⟨long, given_up.mpr long, leads, by decide +kernel, fun other => ?_, converted⟩
  have fails := harmless.mpr other
  rw [converted] at fails
  cases fails

end ScriptGate.Bridge
