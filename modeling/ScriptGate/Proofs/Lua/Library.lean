import ScriptGate.Proofs.Json.Parser
import ScriptGate.Proofs.Lua.Quiet

/-!
# Library functions of quiet guests

Every library function but the two that look for files leaves a quiet guest quiet.
-/

namespace ScriptGate.Lua

open Library (Args Result)
open Json (bind_eq_ok)

/-! ### Results -/

namespace Library

variable {ε α β : Type} {P : α → Prop}

/-- What a function gives, if it does, is as told. -/
def Gives (P : α → Prop) (r : Except ε α) : Prop := ∀ y, r = .ok y → P y

theorem gives_pure {y : α} (holds : P y) : Gives (ε := ε) P (pure y) := by
  rintro _ equal
  obtain rfl := Except.ok.inj equal
  exact holds

theorem gives_error (fault : ε) : Gives P (.error fault) := nofun

theorem gives_bind {x : Except ε β} {f : β → Except ε α} (each : ∀ y, Gives P (f y)) :
    Gives P (x >>= f) := fun z found => by
  obtain ⟨y, -, further⟩ := bind_eq_ok found
  exact each y z further

end Library

open Library (Gives gives_pure gives_error gives_bind)

/-! ### Functions on tables -/

namespace Library.Collection

variable {h last : Heap} {a : Args} {vs : List Value}

@[simp] theorem quiet_put {place : Nat} {i : Int} {v : Value} :
    (put h place i v).Quiet ↔ h.Quiet := .rfl

@[simp] theorem quiet_shiftUp {place count : Nat} {i : Int} :
    (shiftUp h place i count).Quiet ↔ h.Quiet := by
  induction count generalizing h with
  | zero => rfl
  | succ count ih => exact ih

@[simp] theorem quiet_shiftDown {place count : Nat} {i : Int} :
    (shiftDown h place i count).Quiet ↔ h.Quiet := by
  induction count generalizing h i with
  | zero => rfl
  | succ count ih => exact ih

theorem quiet_foldl {α : Type} {f : Heap → α → Heap} (keeps : ∀ h x, (f h x).Quiet ↔ h.Quiet)
    (xs : List α) : (xs.foldl f h).Quiet ↔ h.Quiet := by
  induction xs generalizing h with
  | nil => rfl
  | cons x xs ih => rw [List.foldl_cons, ih, keeps]

@[simp] theorem quiet_copy {source target count : Nat} {i k : Int} {upward : Bool} :
    (copy h source target i k upward count).Quiet ↔ h.Quiet :=
  quiet_foldl (fun _ _ => quiet_put) _

@[simp] theorem quiet_putAll {place : Nat} : (putAll h place vs).Quiet ↔ h.Quiet :=
  quiet_foldl (fun _ _ => quiet_put) _

/-- What a function on tables gives comes with a heap that is as quiet. -/
def Keeps (h : Heap) (r : Effect) : Prop := Gives (fun given => h.Quiet → given.2.Quiet) r

theorem keeps_pure (vs : List Value) {last : Heap} (same : last.Quiet ↔ h.Quiet) :
    Keeps h (pure (vs, last)) := gives_pure same.mpr

theorem keeps_error (message : String) : Keeps h (.error message) := gives_error _

theorem keeps_bind {α : Type} {x : Result α} {f : α → Effect} (each : ∀ y, Keeps h (f y)) :
    Keeps h (x >>= f) := gives_bind each

theorem keeps_insert (h : Heap) (a : Args) : Keeps h (insert h a) := by
  refine keeps_bind fun t => ?_
  extract_lets n
  split
  · exact keeps_pure _ quiet_put
  · refine keeps_bind fun i => ?_
    split
    · exact keeps_error _
    · exact keeps_pure _ (quiet_put.trans quiet_shiftUp)
  · exact keeps_error _

theorem keeps_remove (h : Heap) (a : Args) : Keeps h (remove h a) := by
  refine keeps_bind fun t => keeps_bind fun i => ?_
  split
  · exact keeps_error _
  · refine keeps_pure _ (quiet_put.trans ?_)
    split <;> simp

theorem keeps_concat (h : Heap) (a : Args) : Keeps h (concat h a) :=
  keeps_bind fun _ => keeps_bind fun _ => keeps_bind fun _ => keeps_bind fun _ =>
    keeps_bind fun _ => keeps_pure _ .rfl

theorem keeps_pack (h : Heap) (a : Args) : Keeps h (pack h a) := keeps_pure _ quiet_newTable

theorem keeps_unpack (h : Heap) (a : Args) : Keeps h (unpack h a) := by
  refine keeps_bind fun i => ?_
  split
  · refine keeps_bind fun j => ?_
    split
    · exact keeps_error _
    · exact keeps_pure _ .rfl
  · refine keeps_bind fun j => ?_
    split
    · exact keeps_pure _ .rfl
    · exact keeps_error _

theorem keeps_move (h : Heap) (a : Args) : Keeps h (move h a) := by
  refine keeps_bind fun source => keeps_bind fun i => keeps_bind fun j => keeps_bind fun k => ?_
  extract_lets onto
  have each (target : Nat) : Keeps h (onto target) := by
    simp only [onto]
    split
    · exact keeps_pure _ .rfl
    split
    · exact keeps_error _
    · exact keeps_pure _ quiet_copy
  split <;> exact keeps_bind each

end Library.Collection

open Library.Collection (Keeps)

/-- Whether a library function looks for files. -/
def Builtin.searches : Builtin → Bool
  | .fileSearcher | .searchpath => true
  | _ => false

namespace State

variable {s : State}

section Library

variable (calm : s.Calm)
include calm

/-! ### Values and errors -/

@[simp] theorem quiet_pure (r : Result (List Value)) (site : Option Site) :
    (s.pure_ r site).Quiet := by
  unfold pure_
  split <;> simp [calm]

theorem quiet_effect {r : Library.Collection.Effect} (keeps : Keeps s.heap r)
    (site : Option Site) : (s.effect r site).Quiet := by
  unfold effect
  split
  · exact (calm.withHeap (keeps _ rfl calm.heap)).go rfl
  · simp [calm]

/-- A function that changes the guest or fails. -/
theorem quiet_orFail (go : Result State) (site : Option Site) : Gives Quiet go →
    (match go with
      | .ok s => s
      | .error m => s.fail site m : State).Quiet := by
  intro done
  split
  · exact done _ rfl
  · simp [calm]

@[simp] theorem quiet_raiseAt (error : Value) (site : Option Site) :
    (s.raiseAt error site).Quiet := by
  unfold raiseAt
  split <;> simp [calm]

@[simp] theorem quiet_error (a : Args) (site : Option Site) : (s.error a site).Quiet := by
  unfold error
  split <;> simp [calm]

@[simp] theorem quiet_assert (a : Args) (site : Option Site) : (s.assert a site).Quiet := by
  unfold assert
  split
  · simp [calm]
  · split <;> simp [calm]

@[simp] theorem quiet_setmetatable (a : Args) (site : Option Site) :
    (s.setmetatable a site).Quiet := by
  refine quiet_orFail calm _ site (gives_bind fun t => ?_)
  extract_lets set
  have each (m : Option Nat) : Gives Quiet (set m) := by
    simp only [set]
    split
    · exact gives_error _
    · exact gives_pure ((calm.withHeap (quiet_modifyTable.mpr calm.heap)).go rfl)
  split
  · split <;> exact gives_bind each
  · exact gives_bind each
  · exact gives_bind each

@[simp] theorem quiet_getmetatable (a : Args) : (s.getmetatable a).Quiet := by
  unfold getmetatable
  split
  · simp [calm]
  split
  · simp [calm]
  · split <;> simp [calm]

@[simp] theorem quiet_select (a : Args) (site : Option Site) : (s.select a site).Quiet := by
  unfold select
  split
  · simp [calm]
  split
  · simp [calm]
  · extract_lets rest
    split
    · simp [calm]
    · split <;> simp [calm]

@[simp] theorem quiet_tonumber (a : Args) (site : Option Site) : (s.tonumber a site).Quiet := by
  unfold tonumber
  split
  · split <;> simp [calm]
  split
  · simp [calm]
  · split <;> simp [calm]
  · simp [calm]

@[simp] theorem quiet_tostring (a : Args) (site : Option Site) : (s.tostring a site).Quiet := by
  unfold tostring
  split
  · simp [calm]
  · split <;> simp [calm]

@[simp] theorem quiet_format (done todo : List Value) (site : Option Site) :
    (s.format done site todo).Quiet := by
  induction todo generalizing done with
  | nil => simp [format, calm]
  | cons v todo ih =>
    unfold format
    split
    · exact ih _
    · simp [calm]

@[simp] theorem quiet_next (a : Args) (site : Option Site) : (s.next a site).Quiet := by
  unfold next
  split
  · simp [calm]
  · extract_lets key
    split <;> simp [calm]

@[simp] theorem quiet_pairs (a : Args) (site : Option Site) : (s.pairs a site).Quiet := by
  unfold pairs
  split
  · simp [calm]
  · split <;> simp [calm]

@[simp] theorem quiet_collectgarbage (a : Args) (site : Option Site) :
    (s.collectgarbage a site).Quiet := by
  unfold collectgarbage
  split
  · simp [calm]
  · rename_i t _
    generalize t.toString? = option
    split <;> simp [calm]

@[simp] theorem quiet_rawset (a : Args) (site : Option Site) : (s.rawset a site).Quiet := by
  unfold rawset
  split
  · simp [calm]
  · simp [calm]
  · exact (calm.withHeap (quiet_rawSet.mpr calm.heap)).go rfl

/-! ### Coroutines -/

/-- A coroutine that is made has nothing to do yet. -/
theorem createThread_quiet (a : Args) (site : Option Site) :
    (∀ t next, s.createThread a site = .ok (t, next) → next.Calm) ∧
      ∀ failed, s.createThread a site = .error failed → failed.Quiet := by
  unfold createThread
  split
  · refine ⟨fun _ _ equal => (by simp at equal), fun failed equal => ?_⟩
    obtain rfl := Except.error.inj equal
    simp [calm]
  · refine ⟨fun t next equal => ?_, fun _ equal => (by simp at equal)⟩
    obtain ⟨-, rfl⟩ := Prod.mk.inj (Except.ok.inj equal)
    exact calm.withHeap (quiet_newThread calm.heap rfl)

theorem quiet_threadArg (a : Args) (site : Option Site) {go : Nat → State}
    (each : ∀ t, (go t).Quiet) : (s.threadArg a site go).Quiet := by
  unfold threadArg
  split
  · exact each _
  · simp [calm]

@[simp] theorem quiet_close (t : Nat) (site : Option Site) : (s.close t site).Quiet := by
  unfold close
  split
  · simp [calm]
  · rename_i th found
    split
    · exact quiet_closeThread calm (Array.mem_of_getElem? found)
    · simp [calm]

/-! ### Sorting and replacing -/

@[simp] theorem quiet_sortOn (m : Merge) (place : Nat) (comparator : Value) (site : Option Site) :
    (s.sortOn m place comparator site).Quiet := by
  unfold sortOn
  split
  · exact (calm.withHeap (Library.Collection.quiet_putAll.mpr calm.heap)).go rfl
  · extract_lets pushed
    have pushed_calm : pushed.Calm := calm_push.mpr ⟨rfl, calm⟩
    split <;> simp [pushed_calm]

@[simp] theorem quiet_sort (a : Args) (site : Option Site) : (s.sort a site).Quiet := by
  refine quiet_orFail calm _ site (gives_bind fun t => ?_)
  extract_lets go
  have each (comparator : Value) : Gives Quiet (go comparator) :=
    gives_pure (quiet_sortOn calm _ _ _ _)
  split <;> exact gives_bind each

@[simp] theorem quiet_replaceOn (r : Replacement) (last : Option Nat) (site : Option Site) :
    (s.replaceOn r last site).Quiet := by
  unfold replaceOn
  split
  · simp [calm]
  · simp [calm]
  · extract_lets pushed
    have pushed_calm : pushed.Calm := calm_push.mpr ⟨rfl, calm⟩
    split <;> simp [pushed_calm]

@[simp] theorem quiet_replaced (v : Value) (r : Replacement) (whole : Bytes) (stop : Nat)
    (site : Option Site) : (s.replaced v r whole stop site).Quiet := by
  unfold replaced
  split
  · simp [calm]
  · split <;> simp [calm]

@[simp] theorem quiet_gsub (a : Args) (site : Option Site) : (s.gsub a site).Quiet := by
  unfold gsub
  split <;> simp [calm]

@[simp] theorem quiet_gmatch (a : Args) (site : Option Site) : (s.gmatch a site).Quiet := by
  refine quiet_orFail calm _ site
    (gives_bind fun src => gives_bind fun pat => gives_bind fun start => ?_)
  exact gives_pure ((calm.withHeap (quiet_newClosure.mpr calm.heap)).go rfl)

@[simp] theorem quiet_nextMatch (place : Nat) (src pat : Array UInt8) (at_ : Nat)
    (lastEnd : Option Nat) (site : Option Site) :
    (s.nextMatch place src pat at_ lastEnd site).Quiet := by
  unfold nextMatch
  split
  · simp [calm]
  · simp [calm]
  · exact ⟨⟨calm.frames, calm.heap⟩, rfl⟩

/-! ### The clock -/

@[simp] theorem quiet_date (a : Args) (site : Option Site) : (s.date a site).Quiet := by
  refine quiet_orFail calm _ site (gives_bind fun format => gives_bind fun t => ?_)
  extract_lets d format
  split
  · exact gives_pure (quiet_give (calm_newTable calm _) _)
  · exact gives_bind fun text => gives_pure (quiet_give calm _)

@[simp] theorem quiet_time (a : Args) (site : Option Site) : (s.time a site).Quiet := by
  unfold time
  split
  · simp [calm]
  · split <;> simp [calm]
  · simp [calm]

@[simp] theorem calm_draw : s.draw.2.Calm := by
  simp only [draw]
  exact calm.withHeap (calm.heap.of_threads rfl)

/-! ### Chunks and modules -/

omit calm in
theorem quiet_load {h last : Heap} {text name : Bytes} {globals f : Value} (quiet : h.Quiet)
    (loads : h.load text name globals = .ok (f, last)) : last.Quiet := by
  unfold Heap.load at loads
  split at loads
  · simp at loads
  split at loads
  · simp at loads
  · obtain ⟨-, rfl⟩ := Prod.mk.inj (Except.ok.inj loads)
    exact quiet.of_threads rfl

@[simp] theorem quiet_loadText (text name : Bytes) (globals : Value) :
    (s.loadText text name globals).Quiet := by
  unfold loadText
  split
  · rename_i loads
    exact (calm.withHeap (quiet_load calm.heap loads)).go rfl
  · simp [calm]

@[simp] theorem quiet_refuseLoad (number : Nat) (expected : String) (v : Value) :
    (s.refuseLoad number expected v).Quiet :=
  quiet_raise (calm.withHeap (quiet_newFailure.mpr calm.heap)) _

@[simp] theorem quiet_loadChunk (args : List Value) : (s.load args).Quiet := by
  unfold load
  extract_lets given globals name source
  split
  · simp [calm]
  · split <;> simp [calm]

@[simp] theorem quiet_searchPreload (name : Bytes) : (s.searchPreload name).Quiet := by
  unfold searchPreload
  split <;> simp [calm]

@[simp] theorem quiet_searchNext (name : Bytes) (next : Nat) (message : Bytes)
    (site : Option Site) : (s.searchNext name next message site).Quiet := by
  unfold searchNext
  split
  · split <;> simp [calm]
  · simp [calm]

@[simp] theorem quiet_searched (vs : List Value) (name : Bytes) (next : Nat) (message : Bytes)
    (site : Option Site) : (s.searched vs name next message site).Quiet := by
  unfold searched
  split
  · split <;> simp [calm]
  · simp [calm]

@[simp] theorem quiet_require (name : Bytes) (site : Option Site) :
    (s.require name site).Quiet := by
  simp [require, calm]

@[simp] theorem quiet_wanted (v : Value) (name : Bytes) (site : Option Site) :
    (s.wanted v name site).Quiet := by
  unfold wanted
  split <;> simp [calm]

@[simp] theorem quiet_made (v : Value) (name : Bytes) (data : Value) (site : Option Site) :
    (s.made v name data site).Quiet := by
  unfold made
  extract_lets pushed
  have pushed_calm : pushed.Calm := calm_push.mpr ⟨rfl, calm⟩
  split <;> simp [pushed_calm]

@[simp] theorem quiet_stored (name : Bytes) (data : Value) (site : Option Site) :
    (s.stored name data site).Quiet := by
  unfold stored
  extract_lets keep kept
  have kept_calm : kept.Calm := by
    simp only [kept, keep]
    split
    · exact calm.withHeap (quiet_rawSet.mpr calm.heap)
    · exact calm
  simp [kept_calm]

/-! ### All functions -/

/-- A library function that looks for no file leaves a quiet guest quiet. -/
theorem quiet_builtin {f : Builtin} (plain : f.searches = false) (args : List Value)
    (site : Option Site) : (s.builtin f args site).Quiet := by
  cases f with
  | fileSearcher | searchpath => cases plain
  | assert => exact quiet_assert calm _ _
  | collectgarbage => exact quiet_collectgarbage calm _ _
  | error => exact quiet_error calm _ _
  | getmetatable => exact quiet_getmetatable calm _
  | load => exact quiet_loadChunk calm _
  | next => exact quiet_next calm _ _
  | pairs => exact quiet_pairs calm _ _
  | rawset => exact quiet_rawset calm _ _
  | select => exact quiet_select calm _ _
  | setmetatable => exact quiet_setmetatable calm _ _
  | tonumber => exact quiet_tonumber calm _ _
  | tostring => exact quiet_tostring calm _ _
  | osDate => exact quiet_date calm _ _
  | osTime => exact quiet_time calm _ _
  | stringFormat => exact quiet_format calm _ _ _
  | stringGmatch => exact quiet_gmatch calm _ _
  | stringGsub => exact quiet_gsub calm _ _
  | tableSort => exact quiet_sort calm _ _
  | coroutineYield => exact quiet_yield calm _
  | warn | noSearcher | coroutineIsYieldable | osClock => exact quiet_give calm _
  | ipairsStep | pcall | xpcall | rawlen | require | preloadSearcher | coroutineRunning =>
    simp only [builtin]
    split <;> simp [calm]
  | coroutineCreate =>
    obtain ⟨made, failed⟩ := createThread_quiet calm ⟨Builtin.name .coroutineCreate, args⟩ site
    simp only [builtin]
    split
    · rename_i found
      exact quiet_give (made _ _ found) _
    · rename_i found
      exact failed _ found
  | coroutineWrap =>
    obtain ⟨made, failed⟩ := createThread_quiet calm ⟨Builtin.name .coroutineWrap, args⟩ site
    simp only [builtin]
    split
    · rename_i found
      have next := made _ _ found
      exact (next.withHeap (quiet_newClosure.mpr next.heap)).go rfl
    · rename_i found
      exact failed _ found
  | coroutineResume => exact quiet_threadArg calm _ _ fun t => quiet_resume calm _ _ _ _
  | coroutineStatus => exact quiet_threadArg calm _ _ fun t => quiet_give calm _
  | coroutineClose => exact quiet_threadArg calm _ _ fun t => quiet_close calm _ _
  | mathRandom => exact quiet_pure (calm_draw calm) _ _
  | mathRandomseed => exact ⟨⟨calm.frames, calm.heap.of_threads rfl⟩, rfl⟩
  | tableConcat => exact quiet_effect calm (Library.Collection.keeps_concat _ _) _
  | tableInsert => exact quiet_effect calm (Library.Collection.keeps_insert _ _) _
  | tableMove => exact quiet_effect calm (Library.Collection.keeps_move _ _) _
  | tablePack =>
    exact quiet_effect calm (Library.Collection.keeps_pack s.heap ⟨"pack", args⟩) site
  | tableRemove => exact quiet_effect calm (Library.Collection.keeps_remove _ _) _
  | tableUnpack => exact quiet_effect calm (Library.Collection.keeps_unpack _ _) _
  | ipairs | rawequal | rawget | type | osDifftime | utf8Char | utf8Codepoint | utf8Codes
  | utf8CodesStep | utf8Len | utf8Offset | stringByte | stringChar | stringDump | stringFind
  | stringLen | stringLower | stringMatch | stringRep | stringReverse | stringSub | stringUpper
  | mathAbs | mathAcos | mathAsin | mathAtan | mathCeil | mathCos | mathDeg | mathExp | mathFloor
  | mathFmod | mathLog | mathMax | mathMin | mathModf | mathRad | mathSin | mathSqrt | mathTan
  | mathToInteger | mathType | mathUlt => exact quiet_pure calm _ _

end Library

end State

end ScriptGate.Lua
