import ScriptGate.Lua.Table
import Mathlib.Algebra.Group.Nat.Defs
import Mathlib.Data.List.Nodup

/-!
# Tables

A table that is a list has its values in slots, one after the other, and its border behind the last
of them. A table of entries has a node for each key. `Sound` says what every table keeps, however it
is written to and rebuilt: no key has two nodes, or a node and a slot. So each key with a value is
visited once.
-/

namespace ScriptGate.Lua.Table

variable {t : Table} {values : List Value} {es : List (Value × Value)} {i n : Nat}

theorem not_isNil_iff {v : Value} : (!v.isNil) = true ↔ v ≠ .nil := by
  cases v <;> simp [Value.isNil]

/-! ### Lists -/

/-- The values of a table are in its slots, one after the other. -/
structure IsList (t : Table) (values : List Value) : Prop where
  slots : t.slots = values.toArray
  nodes : t.nodes = #[]

theorem toInt_ofNat (small : (n : Int) ≤ Word.greatest64) : (Int64.ofNat n).toInt = n :=
  Int64.toInt_ofNat_of_lt (by simp only [Word.greatest64] at small; omega)

theorem int_eq_ofNat {i : Int64} (positive : 0 < i.toInt) :
    Value.number (.int i) = .ofNat (i.toInt.toNat - 1 + 1) := by
  have count : i.toInt.toNat - 1 + 1 = i.toInt.toNat := by omega
  have value : (i.toInt.toNat : Int) = i.toInt := Int.toNat_of_nonneg (by omega)
  rw [count, Value.ofNat, ← Int64.ofInt_eq_ofNat, value, Int64.ofInt_toInt]
  rfl

theorem slot?_ofNat (positive : 0 < n) (small : (n : Int) ≤ Word.greatest64) :
    t.slot? (.ofNat n) = if n ≤ t.slots.size then some (n - 1) else none := by
  have number := toInt_ofNat small
  have above : 0 < Int64.ofNat n := by
    rw [Int64.lt_iff_toInt_lt, number, Int64.toInt_zero]
    omega
  simp only [slot?, Value.ofNat, Value.int, above, number, true_and, Int.ofNat_le,
    Int.toNat_natCast]

theorem getNat_of_isList (list : t.IsList values) (i : Nat) :
    t.getNat (i + 1) = values[i]?.getD .nil := by
  have size : t.slots.size = values.length := by simp [list.slots]
  unfold getNat
  by_cases inside : i < values.length
  · rw [if_pos ⟨Nat.succ_pos i, by omega⟩]
    simp [list.slots, inside]
  · have outside : values[i]? = none := List.getElem?_eq_none (by omega)
    rw [if_neg (by omega), outside]
    split
    · rename_i small
      rw [get, slot?_ofNat (Nat.succ_pos i) small, if_neg (by omega)]
      simp [list.nodes]
    · rfl

/-- What follows the last value of a list without nil is its border. -/
theorem length_of_isList (list : t.IsList values) (present : ∀ v ∈ values, v ≠ .nil) :
    t.length = values.length := by
  have size : t.slots.size = values.length := by simp [list.slots]
  have behind : (t.getNat (values.length + 1)).isNil = true := by
    simp [getNat_of_isList list, Value.isNil]
  unfold length
  rw [size]
  cases last : values.length with
  | zero =>
    rw [last] at behind
    simp [behind]
  | succ n =>
    rw [last] at behind
    have inside : n < values.length := by omega
    have at_last : (!(t.getNat (n + 1)).isNil) = true := by
      rw [not_isNil_iff, getNat_of_isList list, List.getElem?_eq_getElem inside]
      exact present _ (List.getElem_mem inside)
    simp [behind, at_last]

/-- What is read at the places up to the border is the list. -/
theorem items_of_isList (list : t.IsList values) (present : ∀ v ∈ values, v ≠ .nil) :
    ((List.range t.length).map fun i => t.getNat (i + 1)) = values := by
  rw [length_of_isList list present]
  refine List.ext_getElem (by simp) fun i _ inside => ?_
  simp [getNat_of_isList list, inside]

/-! ### Tables of entries -/

theorem le_roomFor (n : Nat) : n ≤ roomFor n := by
  unfold roomFor
  split
  · omega
  · split
    · omega
    · have := Nat.lt_log2_self (n := n - 1)
      rw [Nat.one_shiftLeft]
      omega

theorem slot?_of_empty (empty : t.slots = #[]) (key : Value) : t.slot? key = none := by
  unfold slot?
  split
  · rename_i i
    rw [if_neg]
    rintro ⟨positive, bound⟩
    rw [Int64.lt_iff_toInt_lt, Int64.toInt_zero] at positive
    simp [empty] at bound
    omega
  · rfl

theorem node?_eq_none_iff {key : Value} : t.node? key = none ↔ ∀ e ∈ t.nodes, e.1 ≠ key := by
  simp [node?, Array.findIdx?_eq_none_iff]

/-- Entries with new keys line up as nodes where there is room for all. -/
theorem foldl_set_nodes (done : List (Value × Value)) {todo : List (Value × Value)} {room : Nat}
    (nodup : ((done ++ todo).map Prod.fst).Nodup) (present : ∀ e ∈ todo, e.2 ≠ .nil)
    (fits : (done ++ todo).length ≤ room) :
    todo.foldl (fun t e => t.set e.1 e.2) ({ nodes := done.toArray, room } : Table) =
      { nodes := (done ++ todo).toArray, room } := by
  induction todo generalizing done with
  | nil => simp
  | cons e rest ih =>
    have fresh : ∀ other ∈ done, other.1 ≠ e.1 := by
      intro other member equal
      rw [List.map_append, List.nodup_append] at nodup
      exact nodup.2.2 other.1 (List.mem_map_of_mem member) e.1 (by simp) equal
    have room_left : done.length < room := by
      simp at fits
      omega
    have set_eq : ({ nodes := done.toArray, room } : Table).set e.1 e.2 =
        { nodes := (done ++ [e]).toArray, room } := by
      have no_node : ({ nodes := done.toArray, room } : Table).node? e.1 = none :=
        node?_eq_none_iff.mpr (by simpa using fresh)
      have value : e.2.isNil = false := by
        have := not_isNil_iff.mpr (present e (by simp))
        simpa using this
      rw [set, slot?_of_empty rfl, no_node]
      simp [value, room_left]
    rw [List.foldl_cons, set_eq, ih]
    · simp
    · simpa using nodup
    · exact fun other member => present other (List.mem_cons_of_mem _ member)
    · simpa using fits

theorem ofEntries_eq (nodup : (es.map Prod.fst).Nodup) (present : ∀ e ∈ es, e.2 ≠ .nil) :
    ofEntries es = { nodes := es.toArray, room := roomFor es.length } :=
  foldl_set_nodes [] nodup present (le_roomFor es.length)

theorem entries_ofEntries (nodup : (es.map Prod.fst).Nodup) (present : ∀ e ∈ es, e.2 ≠ .nil) :
    (ofEntries es).entries = es := by
  rw [ofEntries_eq nodup present, entries]
  simp only [List.size_toArray, List.length_nil, List.range_zero, List.map_nil, List.nil_append]
  exact List.filter_eq_self.mpr fun e member => not_isNil_iff.mpr (present e member)

/-! ### Sound tables -/

def nodeKeys (t : Table) : List Value := t.nodes.toList.map Prod.fst

/-- The nodes of a table have keys of their own, none of which has a slot. -/
structure Sound (t : Table) : Prop where
  size_le : (t.slots.size : Int) ≤ Word.greatest64
  nodup : t.nodeKeys.Nodup
  apart : ∀ key ∈ t.nodeKeys, t.slot? key = none

theorem sound_of_no_nodes (none : t.nodes = #[]) (small : (t.slots.size : Int) ≤ Word.greatest64) :
    t.Sound where
  size_le := small
  nodup := by simp [nodeKeys, none]
  apart := by simp [nodeKeys, none]

theorem sound_empty : ({} : Table).Sound := sound_of_no_nodes rfl (by decide)

/-- Which keys have a slot depends on the number of slots only. -/
theorem slot?_congr {t' : Table} (same : t'.slots.size = t.slots.size) (key : Value) :
    t'.slot? key = t.slot? key := by
  simp only [slot?, same]

theorem Sound.congr {t' : Table} (sound : t.Sound) (slots : t'.slots.size = t.slots.size)
    (keys : t'.nodeKeys = t.nodeKeys) : t'.Sound where
  size_le := by rw [slots]; exact sound.size_le
  nodup := by rw [keys]; exact sound.nodup
  apart key member := by
    rw [slot?_congr slots]
    exact sound.apart key (keys ▸ member)

theorem Sound.setSlot (sound : t.Sound) (i : Nat) (v : Value) :
    Sound { t with slots := t.slots.setIfInBounds i v } :=
  sound.congr Array.size_setIfInBounds rfl

theorem node?_eq_some {key : Value} (found : t.node? key = some i) :
    ∃ inside : i < t.nodes.size, t.nodes[i].1 = key := by
  rw [node?, Array.findIdx?_eq_some_iff_getElem] at found
  obtain ⟨inside, here, -⟩ := found
  exact ⟨inside, by simpa using here⟩

theorem Sound.setNode (sound : t.Sound) {key : Value} (v : Value)
    (found : t.node? key = some i) :
    Sound { t with nodes := t.nodes.setIfInBounds i (key, v) } := by
  obtain ⟨inside, here⟩ := node?_eq_some found
  refine sound.congr rfl ?_
  show (t.nodes.setIfInBounds i (key, v)).toList.map Prod.fst = t.nodes.toList.map Prod.fst
  refine List.ext_getElem (by simp) fun j _ _ => ?_
  by_cases same : i = j
  · subst same
    simp [here]
  · simp [same]

theorem not_mem_nodeKeys {key : Value} (missing : t.node? key = none) : key ∉ t.nodeKeys := by
  intro member
  obtain ⟨e, inside, equal⟩ := List.mem_map.mp member
  exact node?_eq_none_iff.mp missing e (Array.mem_toList_iff.mp inside) equal

theorem nodeKeys_push (t : Table) (e : Value × Value) :
    nodeKeys { t with nodes := t.nodes.push e } = t.nodeKeys ++ [e.1] := by
  simp [nodeKeys]

theorem Sound.push (sound : t.Sound) {e : Value × Value} (free : t.slot? e.1 = none)
    (fresh : e.1 ∉ t.nodeKeys) : Sound { t with nodes := t.nodes.push e } where
  size_le := sound.size_le
  nodup := by
    rw [nodeKeys_push]
    exact List.nodup_append.mpr ⟨sound.nodup, List.nodup_singleton _, by
      rintro key member _ last rfl
      exact fresh (List.mem_singleton.mp last ▸ member)⟩
  apart key member := by
    rw [nodeKeys_push] at member
    rcases List.mem_append.mp member with old | last
    · exact sound.apart key old
    · rw [List.mem_singleton.mp last]
      exact free

/-! ### Rebuilding -/

theorem nodeKeys_place (t : Table) (e : Value × Value) :
    ∀ key ∈ (t.place e).nodeKeys, key ∈ t.nodeKeys ∨ key = e.1 := by
  unfold place
  split
  · exact fun key member => .inl member
  · intro key member
    rw [nodeKeys_push] at member
    simpa using member

theorem Sound.place (sound : t.Sound) {e : Value × Value} (fresh : e.1 ∉ t.nodeKeys) :
    (t.place e).Sound := by
  unfold Table.place
  split
  · exact sound.setSlot _ _
  · rename_i free
    exact sound.push free fresh

/-- Entries with new keys are placed one after the other. -/
theorem Sound.foldl_place (sound : t.Sound) (nodup : (es.map Prod.fst).Nodup)
    (fresh : ∀ e ∈ es, e.1 ∉ t.nodeKeys) :
    (es.foldl Table.place t).Sound ∧
      ∀ key ∈ (es.foldl Table.place t).nodeKeys, key ∈ t.nodeKeys ∨ key ∈ es.map Prod.fst := by
  induction es generalizing t with
  | nil => exact ⟨sound, fun key member => .inl member⟩
  | cons e rest ih =>
    rw [List.map_cons, List.nodup_cons] at nodup
    have placed := sound.place (fresh e (by simp))
    obtain ⟨all, keys⟩ := ih placed nodup.2 fun other member known => by
      rcases nodeKeys_place t e _ known with old | equal
      · exact fresh other (List.mem_cons_of_mem _ member) old
      · exact nodup.1 (equal ▸ List.mem_map_of_mem member)
    refine ⟨all, fun key member => ?_⟩
    rcases keys key member with old | later
    · rcases nodeKeys_place t e key old with older | equal
      · exact .inl older
      · exact .inr (by simp [equal])
    · exact .inr (List.mem_cons_of_mem _ later)

theorem slotCount_le {size fuel best : Nat} (keys : List Nat) (small : best ≤ 2 ^ 62)
    (bound : size * 2 ^ fuel ≤ 2 ^ 63) : slotCount keys size fuel best ≤ 2 ^ 62 := by
  induction fuel generalizing size best with
  | zero => exact small
  | succ fuel ih =>
    rw [Nat.pow_succ, ← Nat.mul_assoc] at bound
    have least : size ≤ size * 2 ^ fuel := Nat.le_mul_of_pos_right size (Nat.two_pow_pos fuel)
    have size_le : size ≤ 2 ^ 62 := by
      clear small
      omega
    rw [slotCount]
    split
    · exact small
    · refine ih ?_ (by rwa [Nat.mul_right_comm])
      split
      · exact size_le
      · exact small

/-! ### What is visited -/

/-- The entries of a table, in some order: each key with a value once. -/
structure Visits (t : Table) (es : List (Value × Value)) : Prop where
  nodup : (es.map Prod.fst).Nodup
  mem_iff : ∀ key v, (key, v) ∈ es ↔ v ≠ .nil ∧ t.get key = v

theorem mem_entries {e : Value × Value} : e ∈ t.entries ↔ e.2 ≠ .nil ∧
    ((∃ i < t.slots.size, e = (Value.ofNat (i + 1), t.slots.getD i .nil)) ∨ e ∈ t.nodes) := by
  rw [entries, List.mem_filter, not_isNil_iff, List.mem_append, List.mem_map, and_comm]
  simp only [List.mem_range, Array.mem_toList_iff, eq_comm]

theorem slot?_ofNat_succ (sound : t.Sound) (inside : i < t.slots.size) :
    t.slot? (.ofNat (i + 1)) = some i := by
  have size_le := sound.size_le
  rw [slot?_ofNat (Nat.succ_pos i) (by omega), if_pos (Nat.succ_le_of_lt inside)]
  rfl

theorem eq_ofNat_of_slot? {key : Value} (slot : t.slot? key = some i) :
    i < t.slots.size ∧ key = .ofNat (i + 1) := by
  unfold slot? at slot
  split at slot
  · rename_i k
    split at slot
    · rename_i inside
      obtain ⟨positive, bound⟩ := inside
      rw [Int64.lt_iff_toInt_lt, Int64.toInt_zero] at positive
      obtain rfl := Option.some.inj slot
      exact ⟨by omega, int_eq_ofNat positive⟩
    · cases slot
  · cases slot

theorem Sound.get_node (sound : t.Sound) {key v : Value} (member : (key, v) ∈ t.nodes) :
    t.get key = v := by
  have listed : (key, v) ∈ t.nodes.toList := Array.mem_toList_iff.mpr member
  rw [get, sound.apart key (List.mem_map_of_mem listed)]
  have found : t.nodes.find? (·.1 == key) = some (key, v) := by
    cases search : t.nodes.find? (·.1 == key) with
    | none => simpa using Array.find?_eq_none.mp search _ member
    | some e =>
      have same : e.1 = key := by simpa using Array.find?_some search
      have other := Array.mem_toList_iff.mpr (Array.mem_of_find?_eq_some search)
      rw [List.inj_on_of_nodup_map sound.nodup other listed same]
  rw [found]

theorem get_ofEntries (nodup : (es.map Prod.fst).Nodup) (present : ∀ e ∈ es, e.2 ≠ .nil)
    {key v : Value} (member : (key, v) ∈ es) : (ofEntries es).get key = v := by
  have sound : Sound { nodes := es.toArray, room := roomFor es.length } :=
    ⟨show (0 : Int) ≤ Word.greatest64 by decide, nodup, fun key _ => slot?_of_empty rfl key⟩
  rw [ofEntries_eq nodup present]
  exact sound.get_node (List.mem_toArray.mpr member)

theorem get_eq_node {key : Value} (free : t.slot? key = none) (present : t.get key ≠ .nil) :
    (key, t.get key) ∈ t.nodes := by
  rw [get, free] at present ⊢
  cases search : t.nodes.find? (·.1 == key) with
  | none => simp [search] at present
  | some e =>
    obtain ⟨k, v⟩ := e
    have same : k = key := by simpa using Array.find?_some search
    subst same
    exact Array.mem_of_find?_eq_some search

/-- The entries of a sound table are visited in the order of its slots and nodes. -/
theorem Sound.visits_entries (sound : t.Sound) : t.Visits t.entries where
  nodup := by
    refine List.Nodup.sublist (List.filter_sublist.map Prod.fst) ?_
    rw [List.map_append, List.map_map]
    refine List.nodup_append.mpr ⟨?_, sound.nodup, ?_⟩
    · refine List.Nodup.map_on ?_ List.nodup_range
      intro i here j there same
      have slots := congrArg t.slot? same
      rw [Function.comp, Function.comp, slot?_ofNat_succ sound (List.mem_range.mp here),
        slot?_ofNat_succ sound (List.mem_range.mp there)] at slots
      exact Option.some.inj slots
    · rintro _ slot key node rfl
      obtain ⟨i, inside, rfl⟩ := List.mem_map.mp slot
      have free := sound.apart _ node
      rw [Function.comp, slot?_ofNat_succ sound (List.mem_range.mp inside)] at free
      cases free
  mem_iff key v := by
    rw [mem_entries]
    refine and_congr_right fun present => ⟨?_, ?_⟩
    · rintro (⟨i, inside, equal⟩ | member)
      · obtain ⟨rfl, rfl⟩ := Prod.mk.inj equal
        rw [get, slot?_ofNat_succ sound inside]
      · exact sound.get_node member
    · rintro rfl
      cases slot : t.slot? key with
      | none => exact .inr (get_eq_node slot present)
      | some i =>
        obtain ⟨inside, rfl⟩ := eq_ofNat_of_slot? slot
        refine .inl ⟨i, inside, ?_⟩
        rw [get, slot]

theorem Visits.perm {es' : List (Value × Value)} (visits : t.Visits es) (perm : es.Perm es') :
    t.Visits es' where
  nodup := (perm.map Prod.fst).nodup_iff.mp visits.nodup
  mem_iff key v := by rw [← perm.mem_iff, visits.mem_iff]

theorem not_mem_entries {key : Value} (free : t.slot? key = none) (fresh : key ∉ t.nodeKeys)
    (sound : t.Sound) : key ∉ t.entries.map Prod.fst := by
  intro member
  obtain ⟨⟨k, v⟩, visited, rfl⟩ := List.mem_map.mp member
  obtain ⟨present, value⟩ := (sound.visits_entries.mem_iff k v).mp visited
  subst value
  have node := Array.mem_toList_iff.mpr (get_eq_node free present)
  exact fresh (List.mem_map_of_mem node)

/-- A table that is rebuilt has the keys that it had, in slots and nodes. -/
theorem Sound.resize (sound : t.Sound) {slots : Nat} (small : slots ≤ 2 ^ 62) (nodes : Nat) :
    (t.resize slots nodes).Sound ∧
      ∀ key ∈ (t.resize slots nodes).nodeKeys, key ∈ t.entries.map Prod.fst := by
  have empty : Sound
      { t with slots := .replicate slots .nil, nodes := #[], room := roomFor nodes } := by
    refine sound_of_no_nodes rfl ?_
    simp only [Array.size_replicate, Word.greatest64]
    omega
  obtain ⟨all, keys⟩ := empty.foldl_place sound.visits_entries.nodup (by simp [nodeKeys])
  refine ⟨all, fun key member => ?_⟩
  rcases keys key member with none | entry
  · simp [nodeKeys] at none
  · exact entry

/-- Setting a key keeps a table sound. -/
theorem Sound.set (sound : t.Sound) (key v : Value) : (t.set key v).Sound := by
  unfold Table.set
  split
  · exact sound.setSlot _ _
  · rename_i free
    split
    · rename_i i found
      exact sound.setNode v found
    · rename_i missing
      have fresh := not_mem_nodeKeys missing
      split
      · exact sound
      · split
        · exact sound.push free fresh
        · obtain ⟨rebuilt, keys⟩ := sound.resize
            (slotCount_le (positives (key :: t.entries.map Prod.fst)) (by decide : 0 ≤ 2 ^ 62)
              (by decide : 1 * 2 ^ 63 ≤ 2 ^ 63)) _
          exact rebuilt.place fun member => not_mem_entries free fresh sound (keys _ member)

theorem sound_ofEntries (es : List (Value × Value)) : (ofEntries es).Sound := by
  have empty : Sound { room := roomFor es.length } :=
    sound_of_no_nodes rfl (by simp)
  exact List.foldlRecOn es _ empty fun t sound e _ => sound.set e.1 e.2

end ScriptGate.Lua.Table
