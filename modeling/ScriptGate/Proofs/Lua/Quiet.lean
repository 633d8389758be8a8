import ScriptGate.Lua.Machine

/-!
# Guests that wait for no file

A guest is quiet while none of its frames waits for the content of a file and it asks for none. Its
operations and its library functions keep it so, but for the two functions that look for files.
-/

namespace ScriptGate.Lua

/-- Whether a frame waits for the content of a file. -/
@[simp] def Frame.isOpened : Frame → Bool
  | .opened .. => true
  | _ => false

/-- Whether a guest asks for the content of a file. -/
@[simp] def Control.isReading : Control → Bool
  | .ask (.readFile _) => true
  | _ => false

/-- No coroutine at rest waits for a file. -/
def Heap.Quiet (h : Heap) : Prop := ∀ t ∈ h.threads, ∀ f ∈ t.frames, f.isOpened = false

namespace State

/-- Nothing around the point of control waits for a file. -/
structure Calm (s : State) : Prop where
  frames : ∀ f ∈ s.frames, f.isOpened = false
  heap : s.heap.Quiet

/-- A guest that waits for no file and asks for none. -/
structure Quiet (s : State) : Prop where
  calm : s.Calm
  control : s.control.isReading = false

end State

/-! ### Heaps -/

section Heaps

variable {h : Heap}

theorem Heap.Quiet.of_threads {last : Heap} (quiet : h.Quiet) (same : last.threads = h.threads) :
    last.Quiet := by
  rw [Heap.Quiet, same]
  exact quiet

@[simp] theorem quiet_newTable {t : Table} : (h.newTable t).2.Quiet ↔ h.Quiet := .rfl

@[simp] theorem quiet_newClosure {c : Closure} : (h.newClosure c).2.Quiet ↔ h.Quiet := .rfl

@[simp] theorem quiet_newFailure {text : String} : (h.newFailure text).2.Quiet ↔ h.Quiet := .rfl

@[simp] theorem quiet_modifyTable {place : Nat} {f : Table → Table} :
    (h.modifyTable place f).Quiet ↔ h.Quiet := .rfl

@[simp] theorem quiet_rawSet {place : Nat} {key v : Value} :
    (h.rawSet place key v).Quiet ↔ h.Quiet := .rfl

theorem quiet_newThread {t : Thread} (quiet : h.Quiet) (rest : t.frames = []) :
    (h.newThread t).2.Quiet := by
  intro u member f inside
  rcases Array.mem_push.mp member with old | rfl
  · exact quiet u old f inside
  · simp [rest] at inside

end Heaps

namespace State

variable {s : State}

/-! ### Control and frames -/

theorem Calm.go (calm : s.Calm) {c : Control} (plain : c.isReading = false) :
    ({ s with control := c } : State).Quiet := ⟨⟨calm.frames, calm.heap⟩, plain⟩

theorem Calm.withHeap (calm : s.Calm) {h : Heap} (quiet : h.Quiet) :
    ({ s with heap := h } : State).Calm := ⟨calm.frames, quiet⟩

theorem Calm.withDepth (calm : s.Calm) {depth : Nat} : ({ s with depth } : State).Calm :=
  ⟨calm.frames, calm.heap⟩

@[simp] theorem calm_push {f : Frame} : (s.push f).Calm ↔ f.isOpened = false ∧ s.Calm := by
  constructor
  · intro calm
    exact ⟨calm.frames f (by simp [push]), ⟨fun g member => calm.frames g (by simp [push, member]),
      calm.heap⟩⟩
  · rintro ⟨plain, calm⟩
    refine ⟨fun g member => ?_, calm.heap⟩
    rcases List.mem_cons.mp member with rfl | old
    · exact plain
    · exact calm.frames g old

section Operations

variable (calm : s.Calm)
include calm

theorem quiet_give (vs : List Value) : (s.give vs).Quiet := calm.go rfl

theorem quiet_leave (x : Exit) : (s.leave x).Quiet := calm.go rfl

theorem quiet_call (f : Value) (args : List Value) (site : Option Site) :
    (s.call f args site).Quiet := calm.go rfl

theorem quiet_exec (body : List Stat) (env : Env) : (s.exec body env).Quiet := calm.go rfl

theorem quiet_eval (e : Expr) (env : Env) : (s.eval e env).Quiet := calm.go rfl

end Operations

attribute [simp] quiet_give quiet_leave quiet_call quiet_exec quiet_eval

section Operations

variable (calm : s.Calm)
include calm

@[simp] theorem quiet_raise (error : Value) : (s.raise error).Quiet := by
  unfold raise
  split
  · exact quiet_leave calm _
  · split
    · exact (calm_push.mpr ⟨rfl, calm⟩).go rfl
    · exact quiet_leave calm _

@[simp] theorem quiet_fail (site : Option Site) (message : String) : (s.fail site message).Quiet :=
  quiet_raise calm _

@[simp] theorem calm_newTable (t : Table) : (s.newTable t).2.Calm := calm.withHeap calm.heap

/-! ### Operators -/

@[simp] theorem quiet_arithmetic (op : Number.Operator) (a b : Value) (site : Site) :
    (s.arithmetic op a b site).Quiet := by
  unfold arithmetic
  split <;> split <;> simp [calm]

@[simp] theorem quiet_concat (a b : Value) (site : Site) : (s.concat a b site).Quiet := by
  unfold concat
  split
  · simp [calm]
  · split <;> simp [calm]

@[simp] theorem quiet_equal (a b : Value) (expected : Bool) (site : Site) :
    (s.equal a b expected site).Quiet := by
  unfold equal
  split
  · simp [calm]
  split
  · split <;> simp [calm]
  · simp [calm]

@[simp] theorem quiet_ordered (strict : Bool) (a b : Value) (site : Option Site) :
    (s.ordered strict a b site).Quiet := by
  unfold ordered
  split
  · simp [calm]
  · simp [calm]
  · split <;> simp [calm]

@[simp] theorem quiet_binary (op : Binary) (a b : Value) (site : Site) :
    (s.binary op a b site).Quiet := by
  cases op <;> simp [binary, calm]

@[simp] theorem quiet_length (v : Value) (site : Option Site) : (s.length v site).Quiet := by
  unfold length
  split
  · simp [calm]
  · split <;> simp [calm]

@[simp] theorem quiet_unary (op : Unary) (v : Value) (site : Site) : (s.unary op v site).Quiet := by
  unfold unary
  extract_lets withMethod
  have viaMethod (event what : String) : (withMethod event what).Quiet := by
    simp only [withMethod]
    split <;> simp [calm]
  cases op with
  | not | length => simp [calm]
  | minus =>
    simp only
    split
    · simp [calm]
    · simp [calm]
    · exact viaMethod ..
  | complement =>
    simp only
    split
    · split <;> simp [calm]
    · exact viaMethod ..

/-! ### Members -/

@[simp] theorem quiet_index (object key : Value) (site : Option Site) (hops : Nat) :
    (s.index object key site hops).Quiet := by
  unfold index
  split
  · simp [calm]
  extract_lets viaMethod
  have plain {otherwise : State} (quiet : otherwise.Quiet) : (viaMethod otherwise).Quiet := by
    simp only [viaMethod]
    split
    · exact quiet
    · simp [calm]
    · simp [calm]
    · simp [calm]
    · exact calm.go rfl
  split
  · split
    · exact plain (quiet_give calm _)
    · simp [calm]
  · exact calm.go rfl
  · exact plain (quiet_fail calm _ _)

@[simp] theorem quiet_setIndex (object key value : Value) (site : Option Site) (hops : Nat) :
    (s.setIndex object key value site hops).Quiet := by
  unfold setIndex
  split
  · simp [calm]
  extract_lets viaMethod
  have plain {otherwise : State} (quiet : otherwise.Quiet) : (viaMethod otherwise).Quiet := by
    simp only [viaMethod]
    split
    · exact quiet
    · simp [calm]
    · simp [calm]
    · simp [calm]
    · exact calm.go rfl
  split
  · split
    · exact plain (quiet_fail calm _ _)
    · extract_lets set
      have done : set.Quiet := ⟨⟨calm.frames, quiet_rawSet.mpr calm.heap⟩, rfl⟩
      split
      · exact plain done
      · exact done
  · exact calm.go rfl
  · exact plain (quiet_fail calm _ _)

/-! ### Statements -/

omit calm in
@[simp] theorem quiet_bindAll {h : Heap} {scope : List Nat} {vs : List Value} :
    (bindAll h scope vs).2.Quiet ↔ h.Quiet := by
  induction vs generalizing h scope with
  | nil => rfl
  | cons v vs ih => exact ih

@[simp] theorem calm_andThen (todo : List Stat) (env : Env) : (s.andThen todo env).Calm := by
  unfold andThen
  split <;> simp [calm]

@[simp] theorem quiet_evalList (es : List Expr) (env : Env) : (s.evalList es env).Quiet := by
  unfold evalList
  split <;> simp [calm]

@[simp] theorem calm_bind (env : Env) (vs : List Value) : (s.bind env vs).2.Calm :=
  calm.withHeap (quiet_bindAll.mpr calm.heap)

/-! ### Calls -/

@[simp] theorem quiet_enter (parameters : Nat) (takesRest : Bool) (body : List Stat)
    (scope : List Nat) (chunk : Bytes) (args : List Value) (site : Option Site) :
    (s.enter parameters takesRest body scope chunk args site).Quiet := by
  unfold enter
  split
  · simp [calm]
  · refine ⟨⟨fun f member => ?_, quiet_bindAll.mpr calm.heap⟩, rfl⟩
    rcases List.mem_cons.mp member with rfl | old
    · rfl
    · exact calm.frames f old

end Operations

/-! ### Coroutines -/

section Coroutines

variable (calm : s.Calm)
include calm

/-- A coroutine may be left with frames that wait for no file. -/
theorem calm_modifyThread {t : Nat} {f : Thread → Thread}
    (plain : ∀ th ∈ s.heap.threads, ∀ g ∈ (f th).frames, g.isOpened = false) :
    (s.modifyThread t f).Calm := by
  refine ⟨calm.frames, fun u member => ?_⟩
  obtain ⟨i, inside, rfl⟩ := Array.mem_iff_getElem.mp member
  simp only [modifyThread, Array.size_modify] at inside
  simp only [modifyThread, Array.getElem_modify]
  split
  · exact plain _ (Array.getElem_mem inside)
  · exact calm.heap _ (Array.getElem_mem inside)

theorem calm_modifyStatus (t : Nat) (status : Status) :
    (s.modifyThread t ({ · with status })).Calm :=
  calm_modifyThread calm calm.heap

/-- Where a coroutine is below, its status changes. -/
theorem calm_parent (frames : List Frame) (status : Status) :
    (match current? frames with
      | some parent => s.modifyThread parent ({ · with status })
      | none => s : State).Calm := by
  split
  · exact calm_modifyStatus calm _ _
  · exact calm

@[simp] theorem quiet_resume (t : Nat) (args : List Value) (wrapped : Bool) (site : Option Site) :
    (s.resume t args wrapped site).Quiet := by
  unfold resume
  split
  · rename_i frames start failure found
    extract_lets below running resumed
    have rest : ∀ f ∈ frames, f.isOpened = false := calm.heap _ (Array.mem_of_getElem? found)
    have below_calm : below.Calm := calm_parent calm _ _
    have running_calm : running.Calm := calm_modifyThread below_calm (by simp)
    have resumed_calm : resumed.Calm := calm_push.mpr ⟨rfl, running_calm⟩
    split
    · exact quiet_call resumed_calm _ _ _
    · refine ⟨⟨fun f member => ?_, resumed_calm.heap⟩, rfl⟩
      rcases List.mem_append.mp member with own | outer
      · exact rest f own
      · exact resumed_calm.frames f outer
  · extract_lets what
    split <;> simp [calm]
  · simp [calm]

@[simp] theorem calm_leaveOpen {f : Frame} (t : Nat) (plain : f.isOpened = false) :
    (s.leaveOpen t f).Calm := by
  refine calm_modifyThread calm fun th member g inside => ?_
  rcases List.mem_append.mp inside with own | last
  · exact calm.heap th member g own
  · rw [List.mem_singleton.mp last]
    exact plain

@[simp] theorem quiet_closeThread {t : Nat} {th : Thread} (there : th ∈ s.heap.threads) :
    (s.closeThread t th).Quiet := by
  unfold closeThread
  extract_lets pending x
  have dead : (s.modifyThread t fun _ => { status := .dead }).Calm :=
    calm_modifyThread calm (by simp)
  refine ⟨⟨fun f member => ?_, dead.heap⟩, rfl⟩
  rcases List.mem_append.mp member with own | outer
  · exact calm.heap th there f (List.mem_filter.mp own).1
  · rcases List.mem_cons.mp outer with rfl | old
    · rfl
    · exact calm.frames f old

@[simp] theorem calm_endThread (t outer : Nat) (failure : Option Value) :
    (s.endThread t outer failure).Calm := by
  unfold endThread
  extract_lets dead below
  have dead_calm : dead.Calm := calm_modifyThread calm calm.heap
  exact calm_parent dead_calm.withDepth _ _

end Coroutines

theorem split?_frames {frames above below : List Frame} {boundary : Nat × Bool × Nat}
    (found : split? frames = some (above, boundary, below)) :
    (∀ f ∈ above, f ∈ frames) ∧ ∀ f ∈ below, f ∈ frames := by
  induction frames generalizing above with
  | nil => simp [split?] at found
  | cons f frames ih =>
    unfold split? at found
    split at found
    · cases found
    · rename_i same
      obtain ⟨rfl, rfl⟩ := List.cons.inj same
      simp only [Option.some.injEq, Prod.mk.injEq] at found
      obtain ⟨rfl, -, rfl⟩ := found
      exact ⟨by simp, fun g member => List.mem_cons_of_mem _ member⟩
    · rename_i same
      obtain ⟨rfl, rfl⟩ := List.cons.inj same
      obtain ⟨⟨rest, inner, last⟩, further, equal⟩ := Option.map_eq_some_iff.mp found
      simp only [Prod.mk.injEq] at equal
      obtain ⟨rfl, rfl, rfl⟩ := equal
      obtain ⟨own, outer⟩ := ih further
      refine ⟨fun g member => ?_, fun g member => List.mem_cons_of_mem _ (outer g member)⟩
      rcases List.mem_cons.mp member with rfl | inside
      · exact List.mem_cons_self
      · exact List.mem_cons_of_mem _ (own g inside)

@[simp] theorem quiet_yield (calm : s.Calm) (vs : List Value) : (s.yield_ vs).Quiet := by
  unfold yield_
  split
  · simp [calm]
  · rename_i above t wrapped outer below found
    obtain ⟨own, rest⟩ := split?_frames found
    split
    · simp [calm]
    · extract_lets suspended left last
      have suspended_calm : suspended.Calm :=
        calm_modifyThread calm fun _ _ g inside => calm.frames g (own g inside)
      have left_calm : left.Calm := ⟨fun f member => calm.frames f (rest f member),
        suspended_calm.heap⟩
      exact quiet_give (calm_parent left_calm _ _) _

end State

end ScriptGate.Lua
