import ScriptGate.Proofs.Binary64
import ScriptGate.Proofs.Bridge.Heap
import ScriptGate.Proofs.Bridge.Reading
import ScriptGate.Proofs.Json.Injective
import ScriptGate.Proofs.Json.Values
import ScriptGate.Proofs.Lua.Table

/-!
# Into a guest and back

A JSON value that is brought into a heap stands there: whatever is added to the heap later, reading
it gives the value again, with the integers beyond the guest's as doubles. The two directions count
differently. Bringing a value in counts the containers around its innermost value (`Json.reach`),
reading counts the containers themselves (`Json.depth`); they differ where an innermost container
is empty.
-/

namespace ScriptGate

namespace Json

/-! ### What crosses -/

theorem Number.isFinite_of_large {i : Int} (word : IsWord i) (large : Word.greatest64 < i) :
    (Binary64.ofInt i).isFinite = true := by
  simp only [IsWord, Word.greatest64, Word.greatestUnsigned64] at word large
  obtain ⟨n, rfl⟩ := Int.eq_ofNat_of_zero_le (a := i) (by omega)
  exact Binary64.isFinite_ofInt (by omega) (by omega)

/-- A number after it has been a guest's: an integer that a guest has none of is a double. -/
def Number.crossed : Number → Number
  | .int i word =>
    if large : Word.greatest64 < i then .float (Binary64.ofInt i) (isFinite_of_large word large)
    else .int i word
  | .float x finite => .float x finite

mutual

/-- A value after it has been a guest's. -/
def crossed : Json → Json
  | .num n => .num n.crossed
  | .arr items => .arr (crossedItems items)
  | .obj members => .obj (crossedMembers members)
  | .null => .null
  | .bool b => .bool b
  | .str s => .str s

def crossedItems : List Json → List Json
  | [] => []
  | x :: rest => crossed x :: crossedItems rest

def crossedMembers : List (String × Json) → List (String × Json)
  | [] => []
  | (k, x) :: rest => (k, crossed x) :: crossedMembers rest

end

theorem keys_crossedMembers (ms : List (String × Json)) :
    (crossedMembers ms).map Prod.fst = ms.map Prod.fst := by
  induction ms with
  | nil => rfl
  | cons m rest ih => rw [crossedMembers, List.map_cons, List.map_cons, ih]

mutual

/-- How many containers are around the innermost value. An empty container is around none. -/
def reach : Json → Nat
  | .arr items => reachItems items
  | .obj members => reachMembers members
  | _ => 0

def reachItems : List Json → Nat
  | [] => 0
  | x :: rest => max (reach x + 1) (reachItems rest)

def reachMembers : List (String × Json) → Nat
  | [] => 0
  | (_, x) :: rest => max (reach x + 1) (reachMembers rest)

end

variable {n : Nat} {v : Json} {xs : List Json} {ms : List (String × Json)}

mutual

/-- An innermost container that is empty counts for the depth only. -/
theorem depth_le_reach : (v : Json) → v.depth ≤ v.reach + 1
  | .arr xs => by
    rw [reach, depth]
    exact Nat.succ_le_succ (depthItems_le_reachItems xs)
  | .obj ms => by
    rw [reach, depth]
    exact Nat.succ_le_succ (depthMembers_le_reachMembers ms)
  | .null | .bool _ | .num _ | .str _ => by simp [depth]

theorem depthItems_le_reachItems : (xs : List Json) → depthItems xs ≤ reachItems xs
  | [] => by simp [depthItems]
  | x :: rest => by
    have first := depth_le_reach x
    have others := depthItems_le_reachItems rest
    rw [reachItems, depthItems]
    omega

theorem depthMembers_le_reachMembers : (ms : List (String × Json)) →
    depthMembers ms ≤ reachMembers ms
  | [] => by simp [depthMembers]
  | (_, x) :: rest => by
    have first := depth_le_reach x
    have others := depthMembers_le_reachMembers rest
    rw [reachMembers, depthMembers]
    omega

end

mutual

theorem reach_le_depth : (v : Json) → v.reach ≤ v.depth
  | .arr xs => by
    rw [reach, depth]
    exact reachItems_le_depthItems xs
  | .obj ms => by
    rw [reach, depth]
    exact reachMembers_le_depthMembers ms
  | .null | .bool _ | .num _ | .str _ => by simp [reach]

theorem reachItems_le_depthItems : (xs : List Json) → reachItems xs ≤ depthItems xs + 1
  | [] => by simp [reachItems]
  | x :: rest => by
    have first := reach_le_depth x
    have others := reachItems_le_depthItems rest
    rw [reachItems, depthItems]
    omega

theorem reachMembers_le_depthMembers : (ms : List (String × Json)) →
    reachMembers ms ≤ depthMembers ms + 1
  | [] => by simp [reachMembers]
  | (_, x) :: rest => by
    have first := reach_le_depth x
    have others := reachMembers_le_depthMembers rest
    rw [reachMembers, depthMembers]
    omega

end

end Json

namespace Bridge

open Json (Sorted)
open Lua (Value Heap Table)

variable {h h' : Heap} {v : Json} {w : Value} {xs : List Json} {ws : List Value}
  {ms : List (String × Json)} {es : List (Value × Value)} {depth levels : Nat}

/-! ### Values that stand in a heap -/

/-- A guest value reads as a JSON value, whatever is added to the heap: wherever at least as many
levels are left as containers nest in it. -/
structure Stands (h : Heap) (v : Json) (w : Value) : Prop where
  ne_nil : w ≠ .nil
  reads : ∀ h', Grows h h' → ∀ levels, read (contents h') levels w =
    if v.depth ≤ levels then .ok v.crossed else .error .tooDeep

theorem Stands.grow (stands : Stands h v w) (grows : Grows h h') : Stands h' v w where
  ne_nil := stands.ne_nil
  reads h'' more := stands.reads h'' (grows.trans more)

def ItemsStand (h : Heap) (xs : List Json) (ws : List Value) : Prop := List.Forall₂ (Stands h) xs ws

def MembersStand (h : Heap) (ms : List (String × Json)) (es : List (Value × Value)) : Prop :=
  List.Forall₂ (fun m e => e.1 = .text m.1 ∧ Stands h m.2 e.2) ms es

theorem read_number (look : Nat → Contents) (n : Json.Number) :
    read look levels (number n) = .ok (.num n.crossed) := by
  cases n with
  | float x finite => simp [number, Value.float, read, Json.Number.crossed, Json.float, finite]
  | int i word =>
    have from_least : Word.least64 ≤ i := word.1
    by_cases large : Word.greatest64 < i
    · have finite := Json.Number.isFinite_of_large word large
      rw [number, if_neg fun signed => Int.not_le.mpr large signed.2, Value.float, read,
        Json.float, dif_pos finite, Json.Number.crossed, dif_pos large]
    · have small : i ≤ Word.greatest64 := Int.not_lt.mp large
      have value : (Int64.ofInt i).toInt = i := by
        apply Int64.toInt_ofInt_of_le
        · simpa [Word.least64] using from_least
        · simp only [Word.greatest64] at small
          omega
      rw [number, if_pos ⟨from_least, small⟩, Value.int, read, value, Json.int, dif_pos word,
        Json.Number.crossed, dif_neg large]

theorem stands_null (h : Heap) : Stands h .null .null :=
  ⟨by simp, fun _ _ _ => by simp [read, Json.depth, Json.crossed]⟩

theorem stands_bool (h : Heap) (b : Bool) : Stands h (.bool b) (.bool b) :=
  ⟨by simp, fun _ _ _ => by simp [read, Json.depth, Json.crossed]⟩

theorem number_ne_nil (n : Json.Number) : number n ≠ .nil := by
  cases n with
  | float x finite => simp [number, Value.float]
  | int i word =>
    rw [number]
    split <;> simp [Value.int, Value.float]

theorem stands_num (h : Heap) (n : Json.Number) : Stands h (.num n) (number n) where
  ne_nil := number_ne_nil n
  reads _ _ _ := by simp [read_number, Json.depth, Json.crossed]

theorem stands_str (h : Heap) (s : String) : Stands h (.str s) (.text s) :=
  ⟨by simp [Value.text], fun _ _ _ => by
    simp [Value.text, read, Utf8.lossy_ofString, Json.depth, Json.crossed]⟩

/-! ### Lists -/

theorem mapM_read (stand : ItemsStand h xs ws) :
    ws.mapM (read (contents h) levels) =
      if Json.depthItems xs ≤ levels then .ok (Json.crossedItems xs) else .error .tooDeep := by
  induction stand with
  | nil => simp [Json.depthItems, Json.crossedItems]; rfl
  | @cons x w xs ws first _ ih =>
    rw [List.mapM_cons, first.reads h (Grows.refl h), ih, Json.depthItems, Json.crossedItems]
    by_cases here : x.depth ≤ levels
    · by_cases there : Json.depthItems xs ≤ levels
      · simp [here, there]; rfl
      · simp [here, there]; rfl
    · simp [here]; rfl

theorem ItemsStand.ne_nil (stand : ItemsStand h xs ws) : ∀ w ∈ ws, w ≠ .nil := by
  induction stand with
  | nil => simp
  | cons first _ ih => exact List.forall_mem_cons.mpr ⟨first.ne_nil, ih⟩

/-- A marked table of values that stand is a list. -/
theorem stands_arr (marked : MarksArrays h) (stand : ItemsStand h xs ws) :
    Stands (h.newTable { Table.ofList ws with metatable := some h.arrayMetatable }).2 (.arr xs)
      (.table h.tables.size) where
  ne_nil := by simp
  reads h' grows levels := by
    set t : Table := { Table.ofList ws with metatable := some h.arrayMetatable }
    have grown : Grows h h' := (grows_newTable h t).trans grows
    have table : h'.table h.tables.size = t := by
      rw [grows.table_eq _ (by simp [Heap.newTable]), table_newTable]
    have array : isArray h' t = true := by
      have still := marked.grow grown
      rw [MarksArrays, grown.arrays_eq] at still
      exact still
    have list : t.IsList ws := ⟨rfl, rfl⟩
    have read_table : contents h' h.tables.size = .array ws := by
      rw [contents, table]
      simp only [array, if_true]
      rw [Table.items_of_isList list stand.ne_nil]
    rw [Json.depth, Json.crossed]
    cases levels with
    | zero => simp [read]
    | succ levels =>
      rw [read, read_table, Contents.toJson, mapM_read (stand.imp fun _ _ one => one.grow grown)]
      by_cases fits : Json.depthItems xs ≤ levels
      · simp only [fits, if_true, Nat.add_le_add_iff_right]
        rfl
      · simp only [fits, if_false, Nat.add_le_add_iff_right]
        rfl

/-! ### Objects -/

theorem text_injective {s t : String} (same : Value.text s = Value.text t) : s = t :=
  Json.ofString_injective (by simpa [Value.text] using same)

theorem keys_of_membersStand (stand : MembersStand h ms es) :
    es.map Prod.fst = ms.map fun m => Value.text m.1 := by
  induction stand with
  | nil => rfl
  | cons first _ ih => rw [List.map_cons, List.map_cons, first.1, ih]

theorem dense?_of_membersStand (stand : MembersStand h ms es) : dense? es = none := by
  cases stand with
  | nil => simp [dense?]
  | cons first _ => simp [dense?, first.1, Value.text, position?]

theorem mapM_named (stand : MembersStand h ms es) :
    (named es).mapM (fun m => return (m.1, ← read (contents h) levels m.2)) =
      if Json.depthMembers ms ≤ levels then .ok (Json.crossedMembers ms)
      else .error .tooDeep := by
  induction stand with
  | nil => simp [Json.depthMembers, Json.crossedMembers]; rfl
  | @cons m e ms es first _ ih =>
    obtain ⟨k, x⟩ := m
    have head : named (e :: es) = (k, e.2) :: named es := by
      rw [named_cons, first.1, keyText?_text]
    rw [head, List.mapM_cons, first.2.reads h (Grows.refl h), ih, Json.depthMembers,
      Json.crossedMembers]
    by_cases here : x.depth ≤ levels
    · by_cases there : Json.depthMembers ms ≤ levels
      · simp [here, there]; rfl
      · simp [here, there]; rfl
    · simp [here]; rfl

theorem MembersStand.ne_nil (stand : MembersStand h ms es) : ∀ e ∈ es, e.2 ≠ .nil := by
  induction stand with
  | nil => simp
  | cons first _ ih => exact List.forall_mem_cons.mpr ⟨first.2.ne_nil, ih⟩

theorem MembersStand.nodup (stand : MembersStand h ms es) (sorted : Sorted ms) :
    (es.map Prod.fst).Nodup := by
  have keys : (ms.map Prod.fst).Nodup := by
    refine sorted.imp ?_
    rintro key _ less rfl
    exact String.lt_irrefl key less
  rw [keys_of_membersStand stand, ← Function.comp_def Value.text Prod.fst, ← List.map_map]
  exact keys.map fun _ _ => text_injective

theorem members_of_membersStand (stand : MembersStand h ms es) (sorted : Sorted ms) :
    members (read (contents h) levels) es =
      if Json.depthMembers ms ≤ levels then .ok (Json.crossedMembers ms)
      else .error .tooDeep := by
  rw [members_eq, mapM_named stand]
  by_cases fits : Json.depthMembers ms ≤ levels
  · have sorted : Sorted (Json.crossedMembers ms) := by rwa [Sorted, Json.keys_crossedMembers]
    simp only [fits, if_true]
    exact congrArg Except.ok (Json.ofPairs_of_sorted sorted)
  · simp only [fits, if_false]
    rfl

/-- A table of members that stand is an object. -/
theorem stands_obj (sorted : Sorted ms) (stand : MembersStand h ms es) :
    Stands (h.newTable (Table.ofEntries es)).2 (.obj ms) (.table h.tables.size) where
  ne_nil := by simp
  reads h' grows levels := by
    have grown : Grows h h' := (grows_newTable h _).trans grows
    have table : h'.table h.tables.size = Table.ofEntries es := by
      rw [grows.table_eq _ (by simp [Heap.newTable]), table_newTable]
    have nodup := stand.nodup sorted
    have unmarked : isArray h' (Table.ofEntries es) = false := by
      rw [Table.ofEntries_eq nodup stand.ne_nil]
      rfl
    have read_table : contents h' h.tables.size = .entries es := by
      rw [contents, table]
      simp only [unmarked, Table.entries_ofEntries nodup stand.ne_nil]
      rfl
    rw [Json.depth, Json.crossed]
    cases levels with
    | zero => simp [read]
    | succ levels =>
      have later : MembersStand h' ms es := stand.imp fun _ _ one => ⟨one.1, one.2.grow grown⟩
      rw [read, read_table, Contents.toJson, dense?_of_membersStand stand]
      simp only [members_of_membersStand later sorted, Nat.add_le_add_iff_right]
      split <;> rfl

/-! ### Bringing values in -/

mutual

/-- A value whose innermost value is within reach is brought in, and stands from then on. -/
theorem stands_of_bring (v : Json) {depth : Nat} {h : Heap} (ordered : v.Ordered)
    (marked : MarksArrays h) (near : depth + v.reach ≤ maxDepth) :
    ∃ w h', bring depth v h = .ok (w, h') ∧ Grows h h' ∧ Stands h' v w := by
  have enter : ¬ maxDepth < depth := by omega
  match v with
  | .null => exact ⟨_, h, by rw [bring, if_neg enter], Grows.refl h, stands_null h⟩
  | .bool b => exact ⟨_, h, by rw [bring, if_neg enter], Grows.refl h, stands_bool h b⟩
  | .num n => exact ⟨_, h, by rw [bring, if_neg enter], Grows.refl h, stands_num h n⟩
  | .str s => exact ⟨_, h, by rw [bring, if_neg enter], Grows.refl h, stands_str h s⟩
  | .arr xs =>
    have items_near : depth + 1 + Json.reachItems xs ≤ maxDepth + 1 := by
      rw [Json.reach] at near
      omega
    obtain ⟨ws, h', brought, grows, stand⟩ := stands_of_bringItems xs ordered marked items_near
    refine ⟨_, _, by rw [bring, if_neg enter]; simp only [brought]; rfl,
      grows.trans (grows_newTable h' _), ?_⟩
    exact stands_arr (marked.grow grows) stand
  | .obj ms =>
    have members_near : depth + 1 + Json.reachMembers ms ≤ maxDepth + 1 := by
      rw [Json.reach] at near
      omega
    obtain ⟨es, h', brought, grows, stand⟩ :=
      stands_of_bringMembers ms ordered.2 marked members_near
    refine ⟨_, _, by rw [bring, if_neg enter]; simp only [brought]; rfl,
      grows.trans (grows_newTable h' _), ?_⟩
    exact stands_obj ordered.1 stand

theorem stands_of_bringItems (xs : List Json) {depth : Nat} {h : Heap}
    (ordered : Json.OrderedItems xs) (marked : MarksArrays h)
    (near : depth + Json.reachItems xs ≤ maxDepth + 1) :
    ∃ ws h', bringItems depth xs h = .ok (ws, h') ∧ Grows h h' ∧ ItemsStand h' xs ws := by
  match xs with
  | [] => exact ⟨[], h, rfl, Grows.refl h, .nil⟩
  | x :: rest =>
    rw [Json.reachItems] at near
    have first_near : depth + x.reach ≤ maxDepth := by omega
    have rest_near : depth + Json.reachItems rest ≤ maxDepth + 1 := by omega
    obtain ⟨w, h₁, brought, grows, stands⟩ := stands_of_bring x ordered.1 marked first_near
    obtain ⟨ws, h₂, others, more, stand⟩ :=
      stands_of_bringItems rest ordered.2 (marked.grow grows) rest_near
    refine ⟨w :: ws, h₂, ?_, grows.trans more, .cons (stands.grow more) stand⟩
    rw [bringItems, brought]
    simp only [others, bind, Except.bind]
    rfl

theorem stands_of_bringMembers (ms : List (String × Json)) {depth : Nat} {h : Heap}
    (ordered : Json.OrderedMembers ms) (marked : MarksArrays h)
    (near : depth + Json.reachMembers ms ≤ maxDepth + 1) :
    ∃ es h', bringMembers depth ms h = .ok (es, h') ∧ Grows h h' ∧ MembersStand h' ms es := by
  match ms with
  | [] => exact ⟨[], h, rfl, Grows.refl h, .nil⟩
  | (k, x) :: rest =>
    rw [Json.reachMembers] at near
    have first_near : depth + x.reach ≤ maxDepth := by omega
    have rest_near : depth + Json.reachMembers rest ≤ maxDepth + 1 := by omega
    obtain ⟨w, h₁, brought, grows, stands⟩ := stands_of_bring x ordered.1 marked first_near
    obtain ⟨es, h₂, others, more, stand⟩ :=
      stands_of_bringMembers rest ordered.2 (marked.grow grows) rest_near
    refine ⟨(.text k, w) :: es, h₂, ?_, grows.trans more, .cons ⟨rfl, stands.grow more⟩ stand⟩
    rw [bringMembers, brought]
    simp only [others, bind, Except.bind]
    rfl

end

mutual

/-- A value whose innermost value is beyond reach is turned away. -/
theorem bring_tooDeep (v : Json) {depth : Nat} {h : Heap} (far : maxDepth < depth + v.reach) :
    bring depth v h = .error .tooDeep := by
  rw [bring.eq_def]
  split
  · rfl
  · rename_i enter
    match v with
    | .null | .bool _ | .num _ | .str _ => exact absurd (by simpa [Json.reach] using far) enter
    | .arr xs =>
      rw [Json.reach] at far
      have inner_enter : depth + 1 ≤ maxDepth + 1 := by omega
      have inner_far : maxDepth + 1 < depth + 1 + Json.reachItems xs := by omega
      simp only [bringItems_tooDeep xs inner_enter inner_far]
      rfl
    | .obj ms =>
      rw [Json.reach] at far
      have inner_enter : depth + 1 ≤ maxDepth + 1 := by omega
      have inner_far : maxDepth + 1 < depth + 1 + Json.reachMembers ms := by omega
      simp only [bringMembers_tooDeep ms inner_enter inner_far]
      rfl

theorem bringItems_tooDeep (xs : List Json) {depth : Nat} {h : Heap}
    (enter : depth ≤ maxDepth + 1) (far : maxDepth + 1 < depth + Json.reachItems xs) :
    bringItems depth xs h = .error .tooDeep := by
  match xs with
  | [] =>
    rw [Json.reachItems] at far
    exact absurd enter (Nat.not_le_of_lt far)
  | x :: rest =>
    rw [bringItems]
    by_cases first : maxDepth < depth + x.reach
    · rw [bring_tooDeep x first]
      rfl
    · cases bring depth x h with
      | error fault => rfl
      | ok brought =>
        obtain ⟨w, h₁⟩ := brought
        rw [Json.reachItems] at far
        show (bringItems depth rest h₁ >>= fun _ => _) = _
        rw [bringItems_tooDeep rest enter (by omega)]
        rfl

theorem bringMembers_tooDeep (ms : List (String × Json)) {depth : Nat} {h : Heap}
    (enter : depth ≤ maxDepth + 1) (far : maxDepth + 1 < depth + Json.reachMembers ms) :
    bringMembers depth ms h = .error .tooDeep := by
  match ms with
  | [] =>
    rw [Json.reachMembers] at far
    exact absurd enter (Nat.not_le_of_lt far)
  | (k, x) :: rest =>
    rw [bringMembers]
    by_cases first : maxDepth < depth + x.reach
    · rw [bring_tooDeep x first]
      rfl
    · cases bring depth x h with
      | error fault => rfl
      | ok brought =>
        obtain ⟨w, h₁⟩ := brought
        rw [Json.reachMembers] at far
        show (bringMembers depth rest h₁ >>= fun _ => _) = _
        rw [bringMembers_tooDeep rest enter (by omega)]
        rfl

end

mutual

/-- Whatever a heap holds, a value whose innermost value is within reach is brought in. -/
theorem bring_ok (v : Json) (depth : Nat) (h : Heap) (near : depth + v.reach ≤ maxDepth) :
    ∃ brought, bring depth v h = .ok brought := by
  have enter : ¬ maxDepth < depth := by omega
  match v with
  | .null | .bool _ | .num _ | .str _ => exact ⟨_, by rw [bring, if_neg enter]⟩
  | .arr xs =>
    rw [Json.reach] at near
    obtain ⟨⟨ws, h'⟩, brought⟩ := bringItems_ok xs (depth + 1) h (by omega)
    exact ⟨_, by rw [bring, if_neg enter]; simp only [brought]; rfl⟩
  | .obj ms =>
    rw [Json.reach] at near
    obtain ⟨⟨es, h'⟩, brought⟩ := bringMembers_ok ms (depth + 1) h (by omega)
    exact ⟨_, by rw [bring, if_neg enter]; simp only [brought]; rfl⟩

theorem bringItems_ok (xs : List Json) (depth : Nat) (h : Heap)
    (near : depth + Json.reachItems xs ≤ maxDepth + 1) :
    ∃ brought, bringItems depth xs h = .ok brought := by
  match xs with
  | [] => exact ⟨_, rfl⟩
  | x :: rest =>
    rw [Json.reachItems] at near
    obtain ⟨⟨w, h₁⟩, first⟩ := bring_ok x depth h (by omega)
    obtain ⟨⟨ws, h₂⟩, others⟩ := bringItems_ok rest depth h₁ (by omega)
    exact ⟨_, by rw [bringItems, first]; simp only [others, bind, Except.bind]; rfl⟩

theorem bringMembers_ok (ms : List (String × Json)) (depth : Nat) (h : Heap)
    (near : depth + Json.reachMembers ms ≤ maxDepth + 1) :
    ∃ brought, bringMembers depth ms h = .ok brought := by
  match ms with
  | [] => exact ⟨_, rfl⟩
  | (k, x) :: rest =>
    rw [Json.reachMembers] at near
    obtain ⟨⟨w, h₁⟩, first⟩ := bring_ok x depth h (by omega)
    obtain ⟨⟨es, h₂⟩, others⟩ := bringMembers_ok rest depth h₁ (by omega)
    exact ⟨_, by rw [bringMembers, first]; simp only [others, bind, Except.bind]; rfl⟩

end

theorem ofJson_error_iff {f : Fault} : ofJson v h = .error f ↔ maxDepth < v.reach := by
  by_cases near : v.reach ≤ maxDepth
  · obtain ⟨brought, accepted⟩ := bring_ok v 0 h (by omega)
    rw [ofJson, accepted]
    exact iff_of_false (by simp) (by omega)
  · have refused : bring 0 v h = .error .tooDeep := bring_tooDeep v (by omega)
    rw [ofJson, refused]
    exact iff_of_true rfl (by omega)

/-- A value whose containers nest at most as deep as allowed comes back from a guest as it is, an
integer that a guest has none of as the double that it rounds to. -/
theorem toJson_ofJson (ordered : v.Ordered) (shallow : v.depth ≤ maxDepth)
    (marked : MarksArrays h) :
    (∃ w h', ofJson v h = .ok (w, h') ∧ toJson h' w = .ok v.crossed) ∧
      ∀ i word, .int i word ∈ v.numbers → Word.greatest64 < i →
        ∃ x finite, (Json.Number.int i word).crossed = .float x finite ∧
          Decimal.Rounds (Decimal.key x) i := by
  constructor
  · have near : 0 + v.reach ≤ maxDepth := by
      have := Json.reach_le_depth v
      omega
    obtain ⟨w, h', brought, -, stands⟩ := stands_of_bring v ordered marked near
    refine ⟨w, h', brought, ?_⟩
    rw [toJson, stands.reads h' (Grows.refl h'), if_pos shallow]
  · intro i word _ large
    refine ⟨_, _, dif_pos large, ?_⟩
    simp only [Json.IsWord, Word.greatest64, Word.greatestUnsigned64] at word large
    obtain ⟨n, rfl⟩ := Int.eq_ofNat_of_zero_le (a := i) (by omega)
    exact Binary64.rounds_ofInt (by omega) (by omega)

/-- Null, empty containers, keys that look like places and a great integer, in a fresh guest. -/
theorem toJson_ofJson_of_mixed_members :
    let great : Json.Number := .int 18446744073709551615 (by decide)
    let v : Json := .obj [("1", .arr [.null, .arr [], .obj []]), ("2", .num great)]
    v.Ordered ∧ v.depth ≤ maxDepth ∧ MarksArrays (Heap.initial "" 0 0) ∧
      (∃ w h', ofJson v (Heap.initial "" 0 0) = .ok (w, h') ∧
        toJson h' w =
          .ok (.obj [("1", .arr [.null, .arr [], .obj []]), ("2", .num great.crossed)])) ∧
      ∃ x finite, great.crossed = .float x finite ∧
        Decimal.Rounds (Decimal.key x) (18446744073709551615 : Int) := by
  intro great v
  have ordered : v.Ordered :=
    ⟨by decide, ⟨trivial, trivial, ⟨.nil, trivial⟩, trivial⟩, trivial, trivial⟩
  have shallow : v.depth ≤ maxDepth := by decide
  have marked := (prepared_initial "" 0 0).marked
  obtain ⟨crosses, rounds⟩ := toJson_ofJson ordered shallow marked
  exact ⟨ordered, shallow, marked, crosses,
    rounds 18446744073709551615 (by decide) (List.mem_singleton.mpr rfl) (by decide)⟩

/-- The two directions accept the same nesting but for one case: a container that is one too deep
and empty is brought in and not read back. -/
theorem ofJson_accepts_iff (ordered : v.Ordered) (marked : MarksArrays h) :
    ((∃ brought, ofJson v h = .ok brought) ↔
      v.depth ≤ maxDepth ∨ v.depth = maxDepth + 1 ∧ v.reach = maxDepth) ∧
    ∀ w h', ofJson v h = .ok (w, h') →
      (toJson h' w = .error .tooDeep ↔ v.depth = maxDepth + 1) := by
  have above := Json.reach_le_depth v
  have below := Json.depth_le_reach v
  by_cases near : 0 + v.reach ≤ maxDepth
  · obtain ⟨w, h', brought, -, stands⟩ := stands_of_bring v ordered marked near
    refine ⟨⟨fun _ => by omega, fun _ => ⟨_, brought⟩⟩, ?_⟩
    intro w₁ h₁ same
    obtain ⟨rfl, rfl⟩ : w = w₁ ∧ h' = h₁ := by
      rw [ofJson, brought] at same
      cases same
      exact ⟨rfl, rfl⟩
    rw [toJson, stands.reads h' (Grows.refl h')]
    by_cases shallow : v.depth ≤ maxDepth
    · have other : v.depth ≠ maxDepth + 1 := by omega
      simp [shallow, other]
    · have equal : v.depth = maxDepth + 1 := by omega
      simp [equal]
  · have refused : ofJson v h = .error .tooDeep := bring_tooDeep v (by omega)
    rw [refused]
    refine ⟨⟨fun ⟨_, impossible⟩ => ?_, fun accepted => ?_⟩, fun _ _ impossible => ?_⟩
    · cases impossible
    · omega
    · cases impossible

/-- An empty list inside of as many others. -/
def lists : Nat → Json
  | 0 => .arr []
  | n + 1 => .arr [lists n]

theorem depth_lists (n : Nat) : (lists n).depth = n + 1 := by
  induction n with
  | zero => rfl
  | succ n ih => simp [lists, Json.depth, Json.depthItems, ih]

theorem reach_lists (n : Nat) : (lists n).reach = n := by
  induction n with
  | zero => rfl
  | succ n ih => simp [lists, Json.reach, Json.reachItems, ih]

theorem ordered_lists (n : Nat) : (lists n).Ordered := by
  induction n with
  | zero => trivial
  | succ n ih => exact ⟨ih, trivial⟩

theorem ofJson_accepts_lists :
    MarksArrays (Heap.initial "" 0 0) ∧
      ∃ w h', ofJson (lists maxDepth) (Heap.initial "" 0 0) = .ok (w, h') ∧
        toJson h' w = .error .tooDeep := by
  have marked := (prepared_initial "" 0 0).marked
  obtain ⟨accepts, reads⟩ := ofJson_accepts_iff (ordered_lists maxDepth) marked
  obtain ⟨⟨w, h'⟩, brought⟩ := accepts.mpr (.inr ⟨depth_lists _, reach_lists _⟩)
  exact ⟨marked, w, h', brought, (reads w h' brought).mpr (depth_lists _)⟩

/-- More containers than allowed are brought in, and what was brought in is not read back. -/
theorem lists_not_read_back :
    ¬ ∀ (v : Json) (h : Heap), v.Ordered → MarksArrays h →
      ((∃ brought, ofJson v h = .ok brought) ↔ v.depth ≤ maxDepth) ∧
      ∀ w h', ofJson v h = .ok (w, h') → toJson h' w ≠ .error .tooDeep := by
  intro same
  have marked := (prepared_initial "" 0 0).marked
  have near : 0 + (lists maxDepth).reach ≤ maxDepth := by simp [reach_lists]
  obtain ⟨w, h', brought, -, stands⟩ := stands_of_bring _ (ordered_lists maxDepth) marked near
  obtain ⟨-, reads⟩ := same (lists maxDepth) _ (ordered_lists maxDepth) marked
  apply reads w h' brought
  rw [toJson, stands.reads h' (Grows.refl h'), depth_lists]
  simp

end Bridge

end ScriptGate
