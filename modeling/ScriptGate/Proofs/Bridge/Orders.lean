import ScriptGate.Proofs.Bridge.Reading
import ScriptGate.Proofs.Lua.Table
import Mathlib.Data.List.Perm.Subperm

/-!
# Tables in any order of their entries

What a table becomes may depend on the order in which its entries are visited only where two of its
keys have the same text: `1` and `"1"`, say. `Becomes` says what it is to become for one order.
-/

namespace ScriptGate.Bridge

open Json (Sorted find?)
open Lua (Value Heap Table)

variable {t : Table} {es : List (Value × Value)} {i n : Nat} {key v : Value}

/-! ### Keys that are places -/

theorem position?_eq_some_iff : position? n key = some i ↔
    key = .ofNat (i + 1) ∧ i < n ∧ ((i + 1 : Nat) : Int) ≤ Word.greatest64 := by
  constructor
  · intro found
    unfold position? at found
    split at found
    · rename_i k
      split at found
      · rename_i inside
        obtain ⟨first, last⟩ := inside
        obtain rfl := Option.some.inj found
        have small := Int64.toInt_lt k
        refine ⟨Table.int_eq_ofNat (by omega), by omega, ?_⟩
        simp only [Word.greatest64]
        omega
      · cases found
    · cases found
  · rintro ⟨rfl, inside, small⟩
    have value := Table.toInt_ofNat small
    simp only [position?, Value.ofNat, Value.int, value]
    rw [if_pos (by omega)]
    simp

/-- The keys of a table that have values are the integers from 1 to `n`. -/
structure IsDense (t : Table) (n : Nat) : Prop where
  positive : 0 < n
  isWord : (n : Int) ≤ Word.greatest64
  keys : ∀ key, t.get key ≠ .nil ↔ ∃ i < n, key = .ofNat (i + 1)

theorem ofNat_injective {i j : Nat} (small : (i : Int) ≤ Word.greatest64)
    (other : (j : Int) ≤ Word.greatest64) (same : Value.ofNat i = Value.ofNat j) : i = j := by
  have words : Int64.ofNat i = Int64.ofNat j := by
    simpa [Value.ofNat, Value.int] using same
  have values := congrArg Int64.toInt words
  rw [Table.toInt_ofNat small, Table.toInt_ofNat other] at values
  exact Int.ofNat.inj values

theorem mem_keys_iff (visits : t.Visits es) : key ∈ es.map Prod.fst ↔ t.get key ≠ .nil := by
  constructor
  · intro member
    obtain ⟨⟨k, v⟩, visited, rfl⟩ := List.mem_map.mp member
    obtain ⟨present, rfl⟩ := (visits.mem_iff k v).mp visited
    exact present
  · intro present
    exact List.mem_map_of_mem (f := Prod.fst) ((visits.mem_iff key _).mpr ⟨present, rfl⟩)

/-- The keys of a dense table, in any order. -/
theorem IsDense.keys_perm (dense : IsDense t n) (visits : t.Visits es) :
    (es.map Prod.fst).Perm ((List.range n).map fun i => Value.ofNat (i + 1)) := by
  have isWord := dense.isWord
  refine (List.perm_ext_iff_of_nodup visits.nodup ?_).mpr fun key => ?_
  · refine List.Nodup.map_on ?_ List.nodup_range
    intro i here j there same
    rw [List.mem_range] at here there
    have equal := ofNat_injective (by omega) (by omega) same
    omega
  · rw [mem_keys_iff visits, dense.keys, List.mem_map]
    simp only [List.mem_range, eq_comm]

theorem IsDense.length_eq (dense : IsDense t n) (visits : t.Visits es) : es.length = n := by
  have lengths := (dense.keys_perm visits).length_eq
  simpa using lengths

theorem IsDense.position?_eq (dense : IsDense t n) (visits : t.Visits es) {e : Value × Value}
    (member : e ∈ es) : ∃ i < n, e.1 = .ofNat (i + 1) ∧ position? n e.1 = some i := by
  have isWord := dense.isWord
  have present := (mem_keys_iff visits).mp (List.mem_map_of_mem member)
  obtain ⟨i, inside, equal⟩ := (dense.keys e.1).mp present
  exact ⟨i, inside, equal, position?_eq_some_iff.mpr ⟨equal, inside, by omega⟩⟩

/-! ### Filling a list -/

theorem getElem?_foldl_other {place : Value × Value → Nat} {items : Array Value}
    (other : ∀ e ∈ es, place e ≠ i) :
    (es.foldl (fun items e => items.setIfInBounds (place e) e.2) items)[i]? = items[i]? := by
  induction es generalizing items with
  | nil => rfl
  | cons e rest ih =>
    rw [List.foldl_cons, ih fun e member => other e (List.mem_cons_of_mem _ member)]
    simp [other e (by simp)]

theorem getElem?_foldl_set {place : Value × Value → Nat} (items : Array Value)
    (nodup : (es.map place).Nodup) {e : Value × Value} (member : e ∈ es)
    (inside : place e < items.size) :
    (es.foldl (fun items e => items.setIfInBounds (place e) e.2) items)[place e]? = some e.2 := by
  induction es generalizing items with
  | nil => cases member
  | cons first rest ih =>
    rw [List.map_cons, List.nodup_cons] at nodup
    rw [List.foldl_cons]
    rcases List.mem_cons.mp member with rfl | later
    · have others : ∀ other ∈ rest, place other ≠ place e := fun other member equal =>
        nodup.1 (List.mem_map.mpr ⟨other, member, equal⟩)
      rw [getElem?_foldl_other others]
      simp [inside]
    · exact ih _ nodup.2 later (by simpa using inside)

theorem size_foldl_set {place : Value × Value → Nat} {items : Array Value} :
    (es.foldl (fun items e => items.setIfInBounds (place e) e.2) items).size = items.size := by
  induction es generalizing items with
  | nil => rfl
  | cons e rest ih => rw [List.foldl_cons, ih, Array.size_setIfInBounds]

/-- The positions of keys are as different as the keys. -/
theorem nodup_positions (nodup : (es.map Prod.fst).Nodup)
    (all : ∀ e ∈ es, (position? n e.1).isSome) :
    (es.map fun e => (position? n e.1).getD 0).Nodup := by
  refine List.Nodup.map_on ?_ (nodup.of_map Prod.fst)
  intro e here other there same
  obtain ⟨i, at_i⟩ := Option.isSome_iff_exists.mp (all e here)
  obtain ⟨j, at_j⟩ := Option.isSome_iff_exists.mp (all other there)
  rw [at_i, at_j, Option.getD_some, Option.getD_some] at same
  subst same
  have keys : e.1 = other.1 :=
    (position?_eq_some_iff.mp at_i).1.trans (position?_eq_some_iff.mp at_j).1.symm
  exact List.inj_on_of_nodup_map nodup here there keys

/-- As many positions as there are places fill all of them. -/
theorem perm_positions (nodup : (es.map Prod.fst).Nodup)
    (all : ∀ e ∈ es, (position? es.length e.1).isSome) :
    (es.map fun e => (position? es.length e.1).getD 0).Perm (List.range es.length) := by
  have distinct := nodup_positions nodup all
  refine List.Subperm.perm_of_length_le (List.Nodup.subperm distinct ?_) (by simp)
  intro i member
  obtain ⟨e, here, rfl⟩ := List.mem_map.mp member
  obtain ⟨i, at_i⟩ := Option.isSome_iff_exists.mp (all e here)
  rw [at_i, List.mem_range]
  exact (position?_eq_some_iff.mp at_i).2.1

/-- The entries of a dense table fill a list, in any order. -/
theorem dense?_of_isDense (dense : IsDense t n) (visits : t.Visits es) :
    dense? es = some ((List.range n).map fun i => t.get (.ofNat (i + 1))) := by
  have length := dense.length_eq visits
  have positive := dense.positive
  have all : ∀ e ∈ es, (position? n e.1).isSome := fun e member => by
    obtain ⟨i, -, -, found⟩ := dense.position?_eq visits member
    simp [found]
  have condition : n ≠ 0 ∧ (es.all fun e => (position? n e.1).isSome) = true :=
    ⟨by omega, List.all_eq_true.mpr all⟩
  unfold dense?
  simp only [length]
  rw [if_pos condition]
  refine congrArg some (List.ext_getElem? fun i => ?_)
  rw [Array.getElem?_toList]
  by_cases inside : i < n
  · have present := (dense.keys (.ofNat (i + 1))).mpr ⟨i, inside, rfl⟩
    have visited := (visits.mem_iff (.ofNat (i + 1)) _).mpr ⟨present, rfl⟩
    have isWord := dense.isWord
    have place : (position? n (.ofNat (i + 1))).getD 0 = i := by
      rw [position?_eq_some_iff.mpr ⟨rfl, inside, by omega⟩]
      rfl
    have filled := getElem?_foldl_set (Array.replicate n .nil)
      (nodup_positions visits.nodup all) visited (by simpa [place] using inside)
    rw [place] at filled
    rw [filled]
    simp [inside]
  · rw [Array.getElem?_eq_none (by simpa [size_foldl_set] using inside)]
    simp [inside]

/-- Entries that fill a list have all keys that are places in it, since no two have the same. -/
theorem isDense_of_dense? {items : List Value} (found : dense? es = some items)
    (visits : t.Visits es) : IsDense t es.length := by
  unfold dense? at found
  dsimp only at found
  split at found
  · rename_i condition
    obtain ⟨some_entry, all⟩ := condition
    rw [List.all_eq_true] at all
    have at_place : ∀ e ∈ es, ∃ i, position? es.length e.1 = some i := fun e member =>
      Option.isSome_iff_exists.mp (all e member)
    have every : ∀ i < es.length, ∃ e ∈ es, position? es.length e.1 = some i := by
      intro i inside
      obtain ⟨e, member, rfl⟩ := List.mem_map.mp
        ((perm_positions visits.nodup all).mem_iff.mpr (List.mem_range.mpr inside))
      obtain ⟨i, at_i⟩ := at_place e member
      exact ⟨e, member, by rw [at_i, Option.getD_some]⟩
    refine ⟨by omega, ?_, fun key => ?_⟩
    · obtain ⟨e, member, last⟩ := every (es.length - 1) (by omega)
      have small := (position?_eq_some_iff.mp last).2.2
      omega
    · rw [← mem_keys_iff visits]
      constructor
      · intro member
        obtain ⟨e, here, rfl⟩ := List.mem_map.mp member
        obtain ⟨i, at_i⟩ := at_place e here
        obtain ⟨is_i, inside, -⟩ := position?_eq_some_iff.mp at_i
        exact ⟨i, inside, is_i⟩
      · rintro ⟨i, inside, rfl⟩
        obtain ⟨e, member, at_i⟩ := every i inside
        exact List.mem_map.mpr ⟨e, member, (position?_eq_some_iff.mp at_i).1⟩
  · cases found

theorem dense?_eq_none (sparse : ∀ n, ¬ IsDense t n) (visits : t.Visits es) :
    dense? es = none := by
  cases found : dense? es with
  | none => rfl
  | some items => exact absurd (isDense_of_dense? found visits) (sparse _)

/-! ### What a table becomes -/

/-- The value of the last entry that is visited with a text as key. -/
def lastNamed? (text : String) (es : List (Value × Value)) : Option Value :=
  ((named es).reverse.find? (·.1 == text)).map Prod.snd

def DistinctTexts (t : Table) : Prop :=
  ∀ key other text, t.get key ≠ .nil → t.get other ≠ .nil →
    keyText? key = some text → keyText? other = some text → key = other

/-- What a table is to become, its values read by `convert` and its entries visited in an order. A
marked table is the list of its items up to its length; else one whose keys are the integers 1 to n
is the list of their values; any other is an object with one member for each text of a key, which
has the value of the last entry with that text, so one for each entry if all texts differ. -/
inductive Becomes (h : Heap) (convert : Value → Except Fault Json) (t : Table) :
    Contents → Json → Prop where
  | marked {values : List Value} {items : List Json} (mark : isArray h t = true)
      (length : items.length = t.length)
      (each : ∀ i (inside : i < items.length), convert (t.getNat (i + 1)) = .ok items[i]) :
      Becomes h convert t (.array values) (.arr items)
  | dense {es : List (Value × Value)} {items : List Json} (plain : isArray h t = false)
      (keys : IsDense t items.length)
      (each : ∀ i (inside : i < items.length),
        convert (t.get (.ofNat (i + 1))) = .ok items[i])
      (inside : ∀ e ∈ es, ∃ i < items.length, position? es.length e.1 = some i) :
      Becomes h convert t (.entries es) (.arr items)
  | object {es : List (Value × Value)} {ms : List (String × Json)} (plain : isArray h t = false)
      (sparse : ∀ n, ¬ IsDense t n) (sorted : Sorted ms)
      (each : ∀ text v, find? text ms = some v ↔
        ∃ w, lastNamed? text es = some w ∧ convert w = .ok v)
      (distinct : DistinctTexts t → (ms.map Prod.fst).Perm ((named es).map Prod.fst)) :
      Becomes h convert t (.entries es) (.obj ms)

/-- What is read of each table of a heap, the entries in an order of their own. -/
def Shows (h : Heap) (look : Nat → Contents) : Prop :=
  ∀ place, if isArray h (h.table place) then look place = contents h place
    else ∃ es, look place = .entries es ∧ (h.table place).Visits es

/-- The values of a table that are read. -/
def IsRead (h : Heap) (t : Table) (w : Value) : Prop :=
  if isArray h t then ∃ i < t.length, t.getNat (i + 1) = w
  else w ≠ .nil ∧ ∃ key text, keyText? key = some text ∧ t.get key = w

theorem mapM_of_ok {α β : Type} {f : α → Except Fault β} {xs : List α}
    (all : ∀ x ∈ xs, ∃ y, f x = .ok y) :
    ∃ ys, xs.mapM f = .ok ys ∧ List.Forall₂ (fun x y => f x = .ok y) xs ys := by
  induction xs with
  | nil => exact ⟨[], rfl, .nil⟩
  | cons x rest ih =>
    obtain ⟨y, first⟩ := all x (by simp)
    obtain ⟨ys, others, each⟩ := ih fun x member => all x (List.mem_cons_of_mem _ member)
    refine ⟨y :: ys, ?_, .cons first each⟩
    rw [List.mapM_cons, first, others]
    rfl

theorem mem_named {text : String} {w : Value} :
    (text, w) ∈ named es ↔ ∃ key, (key, w) ∈ es ∧ keyText? key = some text := by
  simp only [named, List.mem_filterMap, Option.map_eq_some_iff]
  constructor
  · rintro ⟨e, member, s, found, equal⟩
    obtain ⟨rfl, rfl⟩ := Prod.mk.inj equal
    exact ⟨e.1, member, found⟩
  · rintro ⟨key, member, found⟩
    exact ⟨(key, w), member, text, found, rfl⟩

def ReadAs (convert : Value → Except Fault Json) (ns : List (String × Value))
    (ps : List (String × Json)) : Prop :=
  List.Forall₂ (fun m p => p.1 = m.1 ∧ convert m.2 = .ok p.2) ns ps

variable {convert : Value → Except Fault Json} {ns : List (String × Value)}
  {ps : List (String × Json)}

theorem readAs_of_ok (all : ∀ m ∈ ns, ∃ v, convert m.2 = .ok v) :
    ∃ ps, ns.mapM (fun m => return (m.1, ← convert m.2)) = .ok ps ∧ ReadAs convert ns ps := by
  obtain ⟨ps, read, each⟩ := mapM_of_ok
      (f := fun m : String × Value => return (m.1, ← convert m.2)) fun m member => by
    obtain ⟨v, found⟩ := all m member
    exact ⟨(m.1, v), by rw [found]; rfl⟩
  refine ⟨ps, read, each.imp fun m p one => ?_⟩
  cases found : convert m.2 with
  | error fault =>
    rw [found] at one
    cases one
  | ok v =>
    rw [found] at one
    cases one
    exact ⟨rfl, rfl⟩

theorem ReadAs.keys_eq (each : ReadAs convert ns ps) : ps.map Prod.fst = ns.map Prod.fst := by
  induction each with
  | nil => rfl
  | cons first _ ih => rw [List.map_cons, List.map_cons, first.1, ih]

theorem ReadAs.find? (each : ReadAs convert ns ps) (text : String) (v : Json) :
    (ps.find? (·.1 == text)).map Prod.snd = some v ↔
      ∃ w, (ns.find? (·.1 == text)).map Prod.snd = some w ∧ convert w = .ok v := by
  induction each with
  | nil => simp
  | @cons m p ns ps first _ ih =>
    rw [List.find?_cons, List.find?_cons, first.1]
    cases same : m.1 == text with
    | true => simp [first.2, eq_comm]
    | false => exact ih

theorem mapM_range (convert : Value → Except Fault Json) (f : Nat → Value)
    (all : ∀ i < n, ∃ v, convert (f i) = .ok v) :
    ∃ items, ((List.range n).map f).mapM convert = .ok items ∧ items.length = n ∧
      ∀ i (inside : i < items.length), convert (f i) = .ok items[i] := by
  have reads : ∀ w ∈ (List.range n).map f, ∃ v, convert w = .ok v := by
    intro w member
    obtain ⟨i, inside, rfl⟩ := List.mem_map.mp member
    exact all i (List.mem_range.mp inside)
  obtain ⟨items, read, each⟩ := mapM_of_ok reads
  have length : items.length = n := by simpa using each.length_eq.symm
  refine ⟨items, read, length, fun i inside => ?_⟩
  have item := each.get (by simpa [length] using inside) inside
  simpa using item

variable {h : Heap} {place : Nat} {look look' : Nat → Contents}

theorem isRead_of_marked (mark : isArray h t = true) (inside : i < t.length) :
    IsRead h t (t.getNat (i + 1)) := by
  rw [IsRead, if_pos mark]
  exact ⟨i, inside, rfl⟩

theorem isRead_of_text (plain : isArray h t = false) {text : String}
    (named : keyText? key = some text) (present : t.get key ≠ .nil) : IsRead h t (t.get key) := by
  rw [IsRead, if_neg (by simp [plain])]
  exact ⟨present, key, text, named, rfl⟩

theorem isRead_of_dense (plain : isArray h t = false) (dense : IsDense t n) (inside : i < n) :
    IsRead h t (t.get (.ofNat (i + 1))) :=
  isRead_of_text plain rfl ((dense.keys _).mpr ⟨i, inside, rfl⟩)

theorem nodup_texts (distinct : DistinctTexts t) (visits : t.Visits es) :
    ((named es).map Prod.fst).Nodup := by
  have keys := visits.nodup
  have apart : ∀ e ∈ es, ∀ other ∈ es, ∀ text, keyText? e.1 = some text →
      keyText? other.1 = some text → e.1 = other.1 := by
    intro e here other there text first second
    refine distinct e.1 other.1 text ?_ ?_ first second
    · exact (mem_keys_iff visits).mp (List.mem_map_of_mem here)
    · exact (mem_keys_iff visits).mp (List.mem_map_of_mem there)
  clear distinct visits
  induction es with
  | nil => exact List.nodup_nil
  | cons e rest ih =>
    rw [List.map_cons, List.nodup_cons] at keys
    have others := ih keys.2 fun e here other there =>
      apart e (List.mem_cons_of_mem _ here) other (List.mem_cons_of_mem _ there)
    rw [named_cons]
    cases text : keyText? e.1 with
    | none => exact others
    | some text =>
      refine List.nodup_cons.mpr ⟨fun member => ?_, others⟩
      obtain ⟨⟨k, w⟩, listed, rfl⟩ := List.mem_map.mp member
      obtain ⟨key, visited, found⟩ := mem_named.mp listed
      have same := apart e (by simp) (key, w) (List.mem_cons_of_mem _ visited) k text found
      exact keys.1 (same ▸ List.mem_map_of_mem visited)

theorem lastNamed?_eq_some_iff (distinct : DistinctTexts t) (visits : t.Visits es)
    {text : String} : lastNamed? text es = some v ↔
      ∃ key, keyText? key = some text ∧ v ≠ .nil ∧ t.get key = v := by
  constructor
  · intro last
    obtain ⟨m, found, rfl⟩ := Option.map_eq_some_iff.mp last
    obtain rfl : m.1 = text := by simpa using List.find?_some found
    have member : m ∈ named es := List.mem_reverse.mp (List.mem_of_find?_eq_some found)
    obtain ⟨key, visited, named⟩ := mem_named.mp member
    exact ⟨key, named, (visits.mem_iff key _).mp visited⟩
  · rintro ⟨key, has_text, present, value⟩
    have visited := (visits.mem_iff key v).mpr ⟨present, value⟩
    have member : (text, v) ∈ named es := mem_named.mpr ⟨key, visited, has_text⟩
    rw [lastNamed?]
    cases found : (named es).reverse.find? (·.1 == text) with
    | none =>
      exact absurd (List.find?_eq_none.mp found _ (List.mem_reverse.mpr member)) (by simp)
    | some m =>
      have same : m.1 = text := by simpa using List.find?_some found
      have other : m ∈ named es := List.mem_reverse.mp (List.mem_of_find?_eq_some found)
      rw [List.inj_on_of_nodup_map (nodup_texts distinct visits) other member same]
      rfl

theorem becomes_of_dense (plain : isArray h t = false) (dense : IsDense t n)
    (visits : t.Visits es) (all : ∀ w, IsRead h t w → ∃ v, convert w = .ok v) :
    ∃ j, (Contents.entries es).toJson convert = .ok j ∧ Becomes h convert t (.entries es) j := by
  obtain ⟨items, read, length, each⟩ := mapM_range convert (fun i => t.get (.ofNat (i + 1)))
    fun i inside => all _ (isRead_of_dense plain dense inside)
  rw [Contents.toJson, dense?_of_isDense dense visits]
  subst length
  refine ⟨.arr items, by simp only [read]; rfl, .dense plain dense each fun e member => ?_⟩
  obtain ⟨i, inside, -, found⟩ := dense.position?_eq visits member
  exact ⟨i, inside, by rw [dense.length_eq visits, found]⟩

theorem becomes_of_sparse (plain : isArray h t = false) (sparse : ∀ n, ¬ IsDense t n)
    (visits : t.Visits es) (all : ∀ w, IsRead h t w → ∃ v, convert w = .ok v) :
    ∃ j, (Contents.entries es).toJson convert = .ok j ∧ Becomes h convert t (.entries es) j := by
  have reads : ∀ m ∈ named es, ∃ v, convert m.2 = .ok v := by
    intro m member
    obtain ⟨key, visited, found⟩ := mem_named.mp member
    obtain ⟨present, value⟩ := (visits.mem_iff key _).mp visited
    rw [← value] at present ⊢
    exact all _ (isRead_of_text plain found present)
  obtain ⟨ps, read, each⟩ := readAs_of_ok reads
  rw [Contents.toJson, dense?_eq_none sparse visits]
  refine ⟨.obj (Json.ofPairs ps), by simp only [members_eq, read]; rfl,
    .object plain sparse (Json.sorted_ofPairs ps) (fun text v => ?_) fun distinct => ?_⟩
  -- A later entry replaces an earlier one with its text, so the search starts at the end.
  · have last : ReadAs convert (named es).reverse ps.reverse := List.forall₂_reverse_iff.mpr each
    rw [Json.find?_ofPairs, last.find?]
    rfl
  · have texts := nodup_texts distinct visits
    rw [← each.keys_eq] at texts ⊢
    exact (Json.ofPairs_perm texts).map Prod.fst

/-- What is read of a place, the entries in any order, becomes what it is to become. -/
theorem becomes_of_shows (shows : Shows h look)
    (all : ∀ w, IsRead h (h.table place) w → ∃ v, convert w = .ok v) :
    ∃ j, (look place).toJson convert = .ok j ∧
      Becomes h convert (h.table place) (look place) j := by
  have shown := shows place
  cases mark : isArray h (h.table place) with
  | true =>
    rw [mark, if_pos rfl, contents] at shown
    simp only [mark, if_true] at shown
    obtain ⟨items, read, length, each⟩ := mapM_range convert
      (fun i => (h.table place).getNat (i + 1)) fun i inside => all _ (isRead_of_marked mark inside)
    rw [shown, Contents.toJson, read]
    exact ⟨_, rfl, .marked mark length each⟩
  | false =>
    rw [mark, if_neg (by decide)] at shown
    obtain ⟨es, shown, visits⟩ := shown
    rw [shown]
    by_cases dense : ∃ n, IsDense (h.table place) n
    · obtain ⟨n, dense⟩ := dense
      exact becomes_of_dense mark dense visits all
    · have sparse : ∀ n, ¬ IsDense (h.table place) n := fun n dense_n => dense ⟨n, dense_n⟩
      exact becomes_of_sparse mark sparse visits all

theorem IsDense.unique {m : Nat} (first : IsDense t m) (second : IsDense t n) : m = n := by
  have le {m n : Nat} (first : IsDense t m) (second : IsDense t n) : m ≤ n := by
    have positive := first.positive
    have present := (first.keys (.ofNat (m - 1 + 1))).mpr ⟨m - 1, by omega, rfl⟩
    obtain ⟨i, inside, same⟩ := (second.keys _).mp present
    have isWord := first.isWord
    have other := second.isWord
    have equal := ofNat_injective (by omega) (by omega) same
    omega
  exact Nat.le_antisymm (le first second) (le second first)

theorem items_eq {convert' : Value → Except Fault Json} {f : Nat → Value} {items items' : List Json}
    (length : items.length = items'.length)
    (same : ∀ i < items.length, convert (f i) = convert' (f i))
    (each : ∀ i (inside : i < items.length), convert (f i) = .ok items[i])
    (each' : ∀ i (inside : i < items'.length), convert' (f i) = .ok items'[i]) :
    items = items' := by
  refine List.ext_getElem length fun i inside inside' => ?_
  have read := each i inside
  rw [same i inside, each' i inside'] at read
  exact (Except.ok.inj read).symm

/-- Where no two keys have the same text, what a table becomes does not depend on the order of its
entries. -/
theorem becomes_unique {convert' : Value → Except Fault Json} {j j' : Json} (shows : Shows h look)
    (shows' : Shows h look') (same : ∀ w, IsRead h (h.table place) w → convert w = convert' w)
    (distinct : isArray h (h.table place) = false → DistinctTexts (h.table place))
    (first : Becomes h convert (h.table place) (look place) j)
    (second : Becomes h convert' (h.table place) (look' place) j') : j = j' := by
  have shown := shows place
  have shown' := shows' place
  generalize look place = c at *
  generalize look' place = c' at *
  cases first with
  | marked mark length each =>
    cases second with
    | marked _ length' each' =>
      have sameLength := length.trans length'.symm
      exact congrArg Json.arr (items_eq sameLength
        (fun i inside => same _ (isRead_of_marked mark (length ▸ inside))) each each')
    | dense plain | object plain => exact absurd (mark.symm.trans plain) (by decide)
  | dense plain keys each inside =>
    cases second with
    | marked mark => exact absurd (mark.symm.trans plain) (by decide)
    | dense _ keys' each' =>
      exact congrArg Json.arr (items_eq (keys.unique keys')
        (fun i inside => same _ (isRead_of_dense plain keys inside)) each each')
    | object _ sparse => exact absurd keys (sparse _)
  | @object es ms plain sparse sorted each _ =>
    cases second with
    | marked mark => exact absurd (mark.symm.trans plain) (by decide)
    | dense _ keys => exact absurd keys (sparse _)
    | @object es' ms' _ _ sorted' each' _ =>
      rw [plain, if_neg (by decide)] at shown shown'
      obtain ⟨_, ⟨⟩, visits⟩ := shown
      obtain ⟨_, ⟨⟩, visits'⟩ := shown'
      refine congrArg Json.obj (Json.sorted_ext sorted sorted' fun text => Option.ext fun v => ?_)
      rw [each, each']
      refine exists_congr fun w => ?_
      rw [lastNamed?_eq_some_iff (distinct plain) visits,
        lastNamed?_eq_some_iff (distinct plain) visits']
      refine and_congr_right ?_
      rintro ⟨key, named, present, rfl⟩
      rw [same _ (isRead_of_text plain named present)]

/-! ### Whole values -/

/-- The tables that are read nest at most `n` deep. -/
def NestsIn (h : Heap) : (n : Nat) → Value → Prop
  | 0, .table _ => False
  | n + 1, .table place => ∀ w, IsRead h (h.table place) w → NestsIn h n w
  | _, _ => True

/-- In no table that is read, lists aside, two keys have the same text. -/
def TextsDiffer (h : Heap) : (n : Nat) → Value → Prop
  | n + 1, .table place =>
    (isArray h (h.table place) = false → DistinctTexts (h.table place)) ∧
      ∀ w, IsRead h (h.table place) w → TextsDiffer h n w
  | _, _ => True

/-- A value that is no table is read without a look at tables. -/
theorem read_of_no_table (look look' : Nat → Contents) (no_table : ∀ place, v ≠ .table place) :
    ∃ j, read look n v = .ok j ∧ read look' n v = .ok j := by
  cases v with
  | table place => exact absurd rfl (no_table place)
  | number x => cases x <;> exact ⟨_, by rw [read], by rw [read]⟩
  | _ => exact ⟨_, by rw [read], by rw [read]⟩

theorem read_table_ok (shows : Shows h look)
    (reads : ∀ w, NestsIn h n w → ∃ j, read look n w = .ok j)
    (nests : NestsIn h (n + 1) (.table place)) :
    ∃ j, read look (n + 1) (.table place) = .ok j ∧
      Becomes h (read look n) (h.table place) (look place) j := by
  obtain ⟨j, found, becomes⟩ := becomes_of_shows shows fun w isRead => reads w (nests w isRead)
  exact ⟨j, by rw [read, found], becomes⟩

/-- A value within the depth limit is read, whatever the order of the entries. -/
theorem read_ok (shows : Shows h look) (nests : NestsIn h n v) : ∃ j, read look n v = .ok j := by
  induction n generalizing v with
  | zero =>
    refine (read_of_no_table look look ?_).imp fun j both => both.1
    rintro place rfl
    exact nests.elim
  | succ n ih =>
    by_cases table : ∃ place, v = .table place
    · obtain ⟨place, rfl⟩ := table
      exact (read_table_ok shows (fun w => ih) nests).imp fun j both => both.1
    · refine (read_of_no_table look look fun place equal => ?_).imp fun j both => both.1
      exact table ⟨place, equal⟩

/-- A value within the depth limit is read alike in any two orders of the entries, where no two
keys have the same text. -/
theorem read_same (shows : Shows h look) (shows' : Shows h look') (nests : NestsIn h n v)
    (differ : TextsDiffer h n v) : read look n v = read look' n v := by
  induction n generalizing v with
  | zero =>
    have no_table : ∀ place, v ≠ .table place := by
      rintro place rfl
      exact nests.elim
    obtain ⟨j, first, second⟩ := read_of_no_table (n := 0) look look' no_table
    rw [first, second]
  | succ n ih =>
    by_cases table : ∃ place, v = .table place
    · obtain ⟨place, rfl⟩ := table
      obtain ⟨j, first, becomes⟩ := read_table_ok shows (fun w => read_ok shows) nests
      obtain ⟨j', second, becomes'⟩ := read_table_ok shows' (fun w => read_ok shows') nests
      rw [first, second, becomes_unique shows shows'
        (fun w isRead => ih (nests w isRead) (differ.2 w isRead)) differ.1 becomes becomes']
    · have no_table : ∀ place, v ≠ .table place := fun place equal => table ⟨place, equal⟩
      obtain ⟨j, first, second⟩ := read_of_no_table (n := n + 1) look look' no_table
      rw [first, second]

theorem shows_contents (sound : ∀ place, (h.table place).Sound) : Shows h (contents h) := by
  intro place
  cases mark : isArray h (h.table place) with
  | true => rw [if_pos rfl]
  | false =>
    rw [if_neg (by decide)]
    refine ⟨(h.table place).entries, ?_, (sound place).visits_entries⟩
    simp [contents, mark]

/-- Tables within the depth limit are read in any order of their entries. Each of them becomes what
it is to become in that order, and the whole value does not depend on the order where no two keys
of a table have the same text. -/
theorem toJson_in_any_order (sound : ∀ place, (h.table place).Sound) :
    Shows h (contents h) ∧ ∀ look, Shows h look →
      (∀ n place, NestsIn h (n + 1) (.table place) →
        ∃ j, read look (n + 1) (.table place) = .ok j ∧
          Becomes h (read look n) (h.table place) (look place) j) ∧
      ∀ v, NestsIn h maxDepth v → ∃ j, read look maxDepth v = .ok j ∧
        (TextsDiffer h maxDepth v → toJson h v = .ok j) := by
  refine ⟨shows_contents sound, fun look shows => ⟨fun n place nests => ?_, fun v nests => ?_⟩⟩
  · exact read_table_ok shows (fun w => read_ok shows) nests
  · obtain ⟨j, found⟩ := read_ok shows nests
    refine ⟨j, found, fun differ => ?_⟩
    rw [toJson, read_same (shows_contents sound) shows nests differ, found]

/-! ### A table with a place and a text as keys -/

def pair (key : String) : List (Value × Value) :=
  [(.ofNat 1, .text "a"), (.text key, .text "b")]

/-- A heap whose only table has these entries. -/
def pairHeap (key : String) : Heap := { tables := #[Table.ofEntries (pair key)] }

/-- The entries of its table in some order. -/
def showing (es : List (Value × Value)) (place : Nat) : Contents :=
  .entries (if place = 0 then es else [])

theorem table_pairHeap_succ (key : String) (place : Nat) :
    (pairHeap key).table (place + 1) = {} := by
  simp [pairHeap, Heap.table]

theorem sound_pairHeap (key : String) (place : Nat) : ((pairHeap key).table place).Sound := by
  cases place with
  | zero => exact Table.sound_ofEntries _
  | succ place =>
    rw [table_pairHeap_succ]
    exact Table.sound_empty

theorem ofEntries_pair (key : String) :
    Table.ofEntries (pair key) = { nodes := (pair key).toArray, room := Table.roomFor 2 } :=
  Table.ofEntries_eq (by simp [pair, Value.ofNat, Value.int, Value.text])
    (by simp [pair, Value.text])

theorem entries_pairHeap (key : String) : ((pairHeap key).table 0).entries = pair key := by
  show (Table.ofEntries (pair key)).entries = pair key
  rw [ofEntries_pair]
  rfl

theorem plain_pairHeap (key : String) (place : Nat) :
    isArray (pairHeap key) ((pairHeap key).table place) = false := by
  cases place with
  | zero =>
    show isArray (pairHeap key) (Table.ofEntries (pair key)) = false
    rw [ofEntries_pair]
    rfl
  | succ place =>
    rw [table_pairHeap_succ]
    rfl

theorem shows_pairHeap {key : String} (order : (pair key).Perm es) :
    Shows (pairHeap key) (showing es) := by
  intro place
  rw [plain_pairHeap, if_neg (by decide)]
  have visits := (sound_pairHeap key place).visits_entries
  refine ⟨_, rfl, ?_⟩
  cases place with
  | zero =>
    rw [entries_pairHeap] at visits
    exact visits.perm order
  | succ place =>
    rw [table_pairHeap_succ] at visits ⊢
    exact visits

theorem mem_pair_of_get {key : String} {k : Value}
    (present : ((pairHeap key).table 0).get k ≠ .nil) :
    (k, ((pairHeap key).table 0).get k) ∈ pair key := by
  have visits := (sound_pairHeap key 0).visits_entries
  rw [entries_pairHeap] at visits
  exact (visits.mem_iff k _).mpr ⟨present, rfl⟩

theorem text_of_isRead {key : String} {w : Value}
    (isRead : IsRead (pairHeap key) ((pairHeap key).table 0) w) : ∃ s, w = .str s := by
  rw [IsRead, plain_pairHeap, if_neg (by decide)] at isRead
  obtain ⟨present, k, text, -, rfl⟩ := isRead
  rcases List.mem_pair.mp (mem_pair_of_get present) with equal | equal
  · exact ⟨_, congrArg Prod.snd equal⟩
  · exact ⟨_, congrArg Prod.snd equal⟩

theorem nestsIn_pairHeap (key : String) (n : Nat) : NestsIn (pairHeap key) (n + 1) (.table 0) := by
  intro w isRead
  obtain ⟨s, rfl⟩ := text_of_isRead isRead
  cases n <;> trivial

theorem textsDiffer_pairHeap {key : String} (other : key ≠ "1") (n : Nat) :
    TextsDiffer (pairHeap key) (n + 1) (.table 0) := by
  refine ⟨fun _ => ?_, fun w isRead => ?_⟩
  · intro k l text present also first second
    have here := List.mem_pair.mp (mem_pair_of_get present)
    have there := List.mem_pair.mp (mem_pair_of_get also)
    have one : keyText? (.ofNat 1) = some "1" := rfl
    rcases here with equal | equal <;> rcases there with equal' | equal' <;>
      obtain ⟨rfl, -⟩ := Prod.mk.inj equal <;> obtain ⟨rfl, -⟩ := Prod.mk.inj equal'
    · rfl
    · rw [one] at first
      rw [keyText?_text] at second
      exact absurd (Option.some.inj (second.trans first.symm)) other
    · rw [keyText?_text] at first
      rw [one] at second
      exact absurd (Option.some.inj (first.trans second.symm)) other
    · rfl
  · obtain ⟨s, rfl⟩ := text_of_isRead isRead
    cases n <;> trivial

/-- The entries of a table with the keys `1` and `"x"`, the other way round. -/
theorem toJson_in_any_order_of_pair :
    (∀ place, ((pairHeap "x").table place).Sound) ∧
      Shows (pairHeap "x") (showing (pair "x").reverse) ∧
      NestsIn (pairHeap "x") maxDepth (.table 0) ∧ TextsDiffer (pairHeap "x") maxDepth (.table 0) ∧
      read (showing (pair "x").reverse) maxDepth (.table 0) =
        .ok (.obj [("1", .str "a"), ("x", .str "b")]) ∧
      toJson (pairHeap "x") (.table 0) = .ok (.obj [("1", .str "a"), ("x", .str "b")]) := by
  have shows := shows_pairHeap (List.reverse_perm (pair "x")).symm
  have nests := nestsIn_pairHeap "x" 63
  have differ := textsDiffer_pairHeap (by decide : "x" ≠ "1") 63
  obtain ⟨-, orders⟩ := toJson_in_any_order (sound_pairHeap "x")
  obtain ⟨j, reversed, same⟩ := (orders _ shows).2 (.table 0) nests
  have value : read (showing (pair "x").reverse) maxDepth (.table 0) =
      .ok (.obj [("1", .str "a"), ("x", .str "b")]) := rfl
  refine ⟨sound_pairHeap "x", shows, nests, differ, value, ?_⟩
  rw [same differ, ← reversed, value]

/-- With the keys `1` and `"1"` there is one member only, and which entry it has depends on the
order. -/
theorem order_decides_where_texts_collide :
    ∃ look look', Shows (pairHeap "1") look ∧ Shows (pairHeap "1") look' ∧
      NestsIn (pairHeap "1") maxDepth (.table 0) ∧
      read look maxDepth (.table 0) = .ok (.obj [("1", .str "b")]) ∧
      read look' maxDepth (.table 0) = .ok (.obj [("1", .str "a")]) :=
  ⟨showing (pair "1"), showing (pair "1").reverse, shows_pairHeap (List.Perm.refl _),
    shows_pairHeap (List.reverse_perm (pair "1")).symm, nestsIn_pairHeap "1" 63, rfl, rfl⟩

end ScriptGate.Bridge
