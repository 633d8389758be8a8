import ScriptGate.Bridge
import ScriptGate.Lua.Globals

/-!
# Heaps and the mark of arrays

A heap grows when tables are added and what it has stays. The host marks an array by a metatable of
its own; it is there from the start of a guest, and stays as long as its table is not changed.
-/

namespace ScriptGate.Bridge

open Lua (Value Heap Table)

variable {h h' : Heap}

/-! ### Heaps that grow -/

/-- What a heap has stays as it is in another one. -/
structure Grows (h h' : Heap) : Prop where
  size_le : h.tables.size ≤ h'.tables.size
  table_eq : ∀ place < h.tables.size, h'.table place = h.table place
  arrays_eq : h'.arrayMetatable = h.arrayMetatable

theorem Grows.refl (h : Heap) : Grows h h := ⟨Nat.le_refl _, fun _ _ => rfl, rfl⟩

theorem Grows.trans {h'' : Heap} (first : Grows h h') (second : Grows h' h'') : Grows h h'' where
  size_le := Nat.le_trans first.size_le second.size_le
  table_eq place inside := by
    rw [second.table_eq place (Nat.lt_of_lt_of_le inside first.size_le),
      first.table_eq place inside]
  arrays_eq := second.arrays_eq.trans first.arrays_eq

theorem table_newTable (h : Heap) (t : Table) : (h.newTable t).2.table h.tables.size = t := by
  simp [Heap.newTable, Heap.table]

theorem grows_newTable (h : Heap) (t : Table) : Grows h (h.newTable t).2 where
  size_le := by simp [Heap.newTable]
  table_eq place inside := by
    simp [Heap.newTable, Heap.table, Array.getElem?_push, Nat.ne_of_lt inside]
  arrays_eq := rfl

/-- The metatable of the arrays that the host makes marks them as arrays. -/
def MarksArrays (h : Heap) : Prop := (h.member h.arrayMetatable arrayMark).isTrue = true

instance (h : Heap) : Decidable (MarksArrays h) := inferInstanceAs (Decidable (_ = _))

theorem MarksArrays.inside (marked : MarksArrays h) : h.arrayMetatable < h.tables.size := by
  refine Nat.lt_of_not_le fun outside => ?_
  have absent : h.table h.arrayMetatable = {} := by
    simp [Heap.table, Array.getElem?_eq_none outside]
  have missing : h.member h.arrayMetatable arrayMark = .nil := by
    rw [Heap.member, absent]
    rfl
  rw [MarksArrays, missing] at marked
  exact absurd marked (by decide)

theorem MarksArrays.grow (marked : MarksArrays h) (grows : Grows h h') : MarksArrays h' := by
  rw [MarksArrays, Heap.member, grows.arrays_eq, grows.table_eq _ marked.inside]
  exact marked

theorem MarksArrays.rawSet {place : Nat} (marked : MarksArrays h)
    (other : place ≠ h.arrayMetatable) (key value : Value) :
    MarksArrays (h.rawSet place key value) := by
  have same : (h.rawSet place key value).table h.arrayMetatable = h.table h.arrayMetatable := by
    simp [Heap.rawSet, Heap.modifyTable, Heap.table, Array.getElem?_modify, other]
  show ((Heap.table _ h.arrayMetatable).get _).isTrue = true
  rw [same]
  exact marked

/-! ### A fresh guest -/

/-- What the tables of a fresh guest are made of leaves the metatable of arrays alone. -/
structure Prepared (h : Heap) : Prop where
  marked : MarksArrays h
  globals : h.globals ≠ h.arrayMetatable
  loaded : h.loaded ≠ h.arrayMetatable
  preload : h.preload ≠ h.arrayMetatable

theorem Prepared.newTable (ready : Prepared h) (t : Table) : Prepared (h.newTable t).2 :=
  ⟨ready.marked.grow (grows_newTable h t), ready.globals, ready.loaded, ready.preload⟩

theorem Prepared.rawSet {place : Nat} (ready : Prepared h) (other : place ≠ h.arrayMetatable)
    (key value : Value) : Prepared (h.rawSet place key value) :=
  ⟨ready.marked.rawSet other key value, ready.globals, ready.loaded, ready.preload⟩

theorem Prepared.setBoth (ready : Prepared h) (name : String) (v : Value) :
    Prepared (Lua.Globals.set (Lua.Globals.set h h.globals name v) h.loaded name v) :=
  (ready.rawSet ready.globals _ _).rawSet ready.loaded _ _

theorem Prepared.withMetatable (ready : Prepared h) (place : Nat) :
    Prepared { h with textMetatable := place } :=
  ⟨ready.marked, ready.globals, ready.loaded, ready.preload⟩

theorem Prepared.withPackage (ready : Prepared h) (place : Nat) :
    Prepared { h with package := place } :=
  ⟨ready.marked, ready.globals, ready.loaded, ready.preload⟩

theorem Prepared.addLibrary (ready : Prepared h) (l : Lua.LibraryTable) :
    Prepared (Lua.Globals.addLibrary h l) := by
  have made := ready.newTable (Table.ofEntries (l.members.map fun m => (.text m.1, m.2)))
  have listed := made.setBoth l.name (.table h.tables.size)
  unfold Lua.Globals.addLibrary
  by_cases text : l.name = "string"
  · simp only [text, if_true] at listed ⊢
    exact (listed.newTable _).withMetatable _
  · simp only [text, if_false]
    exact listed

theorem Prepared.addPackage (ready : Prepared h) (root : String) :
    Prepared (Lua.Globals.addPackage h root) := by
  unfold Lua.Globals.addPackage
  exact (((ready.newTable _).newTable _).setBoth "package" _).withPackage _

theorem marksArrays_newTable (h : Heap) :
    MarksArrays { (h.newTable (Table.ofEntries [(.text arrayMark, .bool true)])).2 with
      arrayMetatable := h.tables.size } := by
  show ((Heap.table (h.newTable _).2 h.tables.size).get (.text arrayMark)).isTrue = true
  rw [table_newTable]
  decide +kernel

/-- The metatable of arrays is the fourth table of a fresh heap, and no library touches it. -/
theorem prepared_initial (root : String) (clock : Int) (seed : UInt64) :
    Prepared (Heap.initial root clock seed) := by
  unfold Heap.initial
  refine Prepared.addPackage ?_ root
  refine List.foldlRecOn _ _ ?_ fun h ready l _ => ready.addLibrary l
  have first : Prepared { (Lua.Globals.table (Lua.Globals.table (Lua.Globals.table
        (Lua.Globals.table { clock, random := seed, threads := #[{ status := .running }] }
          Lua.Globals.basic).2 []).2 []).2 [(arrayMark, .bool true)]).2 with
      globals := 0, loaded := 1, preload := 2, arrayMetatable := 3 } :=
    ⟨marksArrays_newTable _, by simp, by simp, by simp⟩
  exact ((first.rawSet first.globals _ _).rawSet first.globals _ _).rawSet first.loaded _ _

end ScriptGate.Bridge
