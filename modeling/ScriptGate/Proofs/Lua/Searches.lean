import ScriptGate.Proofs.Lua.Library

/-!
# Where a guest looks for files

A step of a quiet guest leaves it quiet or begins a search: it asks for the files of the search in
turn until one of them is there, and nothing else comes between.
-/

namespace ScriptGate.Lua

open Library (Args)

/-- What a guest looks for: the file of a module, or a file as `package.searchpath` does, in which
templates and under which name. -/
inductive Search where
  | module (templates name : Bytes)
  | file (templates name : Bytes)
  deriving DecidableEq, Repr

namespace Search

def files : Search → List Bytes
  | .module templates name => Require.moduleCandidates templates name
  | .file templates name => Require.candidates templates name

/-- The file that is found among some: the first that has a content. -/
def firstOf (content : Bytes → Option Bytes) (files : List Bytes) : Option Bytes :=
  files.find? fun path => (content path).isSome

/-- The file that a search finds. -/
def finds? (content : Bytes → Option Bytes) (q : Search) : Option Bytes := firstOf content q.files

end Search

namespace State

/-- The search that the next step of a guest begins. -/
def search? (s : State) : Option Search :=
  match s.control with
  | .call (.builtin .fileSearcher) args _ =>
    match s.heap.member s.heap.package "path", Args.text ⟨Builtin.fileSearcher.name, args⟩ 0 with
    | .str templates, .ok name => some (.module templates (Require.untilZero name))
    | _, _ => none
  | .call (.builtin .searchpath) args _ =>
    let a : Args := ⟨Builtin.searchpath.name, args⟩
    let read : Library.Result Search := do
      let name := Require.fileName (← a.text 0) (← a.textOr 2 [Require.dot])
        (← a.textOr 3 [Require.slash])
      return .file (← a.text 1) name
    read.toOption
  | _ => none

/-! ### Steps of a quiet guest -/

variable {s : State}

section Steps

variable (calm : s.Calm)
include calm

/-! ### Tables under construction -/

@[simp] theorem calm_flush (place count : Nat) (pending : List Value) :
    (s.flush place count pending).Calm := calm.withHeap (quiet_modifyTable.mpr calm.heap)

@[simp] theorem quiet_fields (place count : Nat) (pending : List Value) (todo : List Field)
    (env : Env) (line : Nat) : (s.fields place count pending todo env line).Quiet := by
  unfold fields
  split <;> simp [calm]

@[simp] theorem quiet_item (vs : List Value) (place count : Nat) (pending : List Value)
    (todo : List Field) (env : Env) (line : Nat) :
    (s.item vs place count pending todo env line).Quiet := by
  unfold item
  split
  · simp [calm]
  · extract_lets pending
    split <;> simp [calm]

/-! ### Assignment and loops -/

@[simp] theorem quiet_store (todo : List (Target × Value × Value × Value)) (site : Site) :
    (s.store todo site).Quiet := by
  induction todo generalizing s with
  | nil => simp [store, calm]
  | cons first rest ih =>
    obtain ⟨target, o, k, v⟩ := first
    cases target with
    | cell c => exact ih (calm.withHeap (calm.heap.of_threads rfl))
    | member =>
      unfold store
      split <;> simp [calm]

theorem quiet_loopBody {f : Frame} (plain : f.isOpened = false) (v : Value) (body : List Stat)
    (env : Env) : (s.loopBody f v body env).Quiet :=
  quiet_exec (calm_bind (calm_push.mpr ⟨plain, calm⟩) env [v]) _ _

@[simp] theorem quiet_countFrom (start stop step : Value) (body : List Stat) (env : Env)
    (line : Nat) : (s.countFrom start stop step body env line).Quiet := by
  unfold countFrom
  extract_lets site
  split
  · split
    · simp [calm]
    split
    · simp [calm]
    · exact quiet_loopBody calm rfl _ _ _
  · simp only
    split
    · simp [calm]
    · refine iteInduction (fun _ => quiet_loopBody calm rfl _ _ _) fun _ => quiet_give calm _
  · simp [calm]
  · simp [calm]
  · simp [calm]

@[simp] theorem quiet_iterate (f state control : Value) (count : Nat) (body : List Stat)
    (env : Env) (line : Nat) : (s.iterate f state control count body env line).Quiet := by
  simp [iterate, calm]

/-! ### Scopes -/

@[simp] theorem quiet_declare (vs : List Value) (closing : List Bool) (todo : List Stat)
    (env : Env) (line : Nat) : (s.declare vs closing todo env line).Quiet := by
  unfold declare
  have bound := calm_bind calm env (adjust closing.length vs)
  simp only
  split
  · simp [bound]
  · split <;> simp [bound]

@[simp] theorem quiet_closeValue {after : Frame} (plain : after.isOpened = false)
    (v error : Value) (site : Site) : (s.closeValue v error site after).Quiet := by
  unfold closeValue
  extract_lets pushed
  have pushed_calm : pushed.Calm := calm_push.mpr ⟨plain, calm⟩
  split <;> simp [pushed_calm]

/-! ### Steps -/

theorem quiet_stepEval (e : Expr) (env : Env) : (s.stepEval e env).Quiet := by
  cases e with
  | table fs line => exact quiet_fields (calm_newTable calm _) _ _ _ _ _ _
  | function f =>
    obtain ⟨parameters, takesRest, body⟩ := f
    exact (calm.withHeap (quiet_newClosure.mpr calm.heap)).go rfl
  | _ => simp [stepEval, calm]

theorem quiet_stepExec (body : List Stat) (env : Env) : (s.stepExec body env).Quiet := by
  unfold stepExec
  split
  · simp [calm]
  · split <;> try (simp [calm]; done)
    · extract_lets parts rest targets
      split <;> simp [calm, rest]
    · exact ⟨⟨calm.frames, calm.heap⟩, rfl⟩
    · split <;> simp [calm]

theorem quiet_stepCall {f : Value} (plain : ∀ b, f = .builtin b → b.searches = false)
    (args : List Value) (site : Option Site) : (s.stepCall f args site).Quiet := by
  unfold stepCall
  split
  · split <;> simp [calm]
  · rename_i b
    exact quiet_builtin calm (plain b rfl) _ _
  · exact calm.go rfl
  · split <;> simp [calm]

theorem quiet_receive {f : Frame} (plain : f.isOpened = false) (vs : List Value) :
    (s.receive f vs).Quiet := by
  cases f with
  | opened => simp at plain
  | list done todo env =>
    rcases todo with _ | ⟨e, _ | ⟨e', es⟩⟩ <;> simp [receive, calm]
  | apply f first site tail =>
    simp only [receive]
    split <;> simp [calm]
  | tableValue place count pending key todo env line =>
    simp only [receive]
    split
    · exact quiet_fields (calm.withHeap (quiet_rawSet.mpr calm.heap)) _ _ _ _ _ _
    · simp [calm]
  | intLoop =>
    exact iteInduction (fun _ => quiet_give calm _) fun _ => quiet_loopBody calm rfl _ _ _
  | floatLoop =>
    exact iteInduction (fun _ => quiet_loopBody calm rfl _ _ _) fun _ => quiet_give calm _
  | genericInit =>
    simp only [receive]
    split
    · simp [calm]
    · split <;> simp [calm]
  | genericCall f state n body env line =>
    simp only [receive]
    split
    · simp [calm]
    · exact quiet_exec (calm_bind (calm_push.mpr ⟨rfl, calm⟩) _ _) _ _
  | close => exact quiet_closeValue calm rfl _ _ _
  | activation => exact ⟨⟨calm.frames, calm.heap⟩, rfl⟩
  | _ =>
    simp only [receive]
    first
    | simp [calm]; done
    | split <;> simp [calm]

theorem quiet_unwind (f : Frame) (x : Exit) : (s.unwind f x).Quiet := by
  unfold unwind
  split <;> try simp [calm]
  · split
    · exact quiet_leave (calm_leaveOpen calm _ rfl) _
    · exact quiet_closeValue calm rfl _ _ _
  · exact quiet_closeValue calm rfl _ _ _
  · split <;> simp [calm]
  · split <;> simp [calm]
  · exact ⟨⟨calm.frames, calm.heap⟩, rfl⟩
  · exact ⟨⟨calm.frames, calm.heap⟩, rfl⟩
  · exact ⟨⟨calm.frames, calm.heap⟩, rfl⟩
  · split
    · exact quiet_raiseAt (calm_endThread calm _ _ _) _ _
    · exact quiet_give (calm_endThread calm _ _ _) _
  · exact quiet_give calm.withDepth _
  · exact quiet_give calm.withDepth _

end Steps

variable {content : Bytes → Option Bytes} {due : Option Bytes} {next : State} {q : Question}
  {stop : Stop} {last : Heap}

/-- A step of a quiet guest leaves it quiet if it does not call a function that looks for files. -/
theorem quiet_step (quiet : s.Quiet)
    (plain : ∀ b args site, s.control = .call (.builtin b) args site → b.searches = false)
    (moves : s.step = .moved next) : next.Quiet := by
  obtain ⟨calm, -⟩ := quiet
  have below {f : Frame} {rest : List Frame} (same : s.frames = f :: rest) :
      ({ s with frames := rest } : State).Calm :=
    ⟨fun g member => calm.frames g (by simp [same, member]), calm.heap⟩
  unfold step at moves
  split at moves
  · exact Progress.moved.inj moves ▸ quiet_stepEval calm _ _
  · exact Progress.moved.inj moves ▸ quiet_stepExec calm _ _
  · rename_i calls
    refine Progress.moved.inj moves ▸ quiet_stepCall calm ?_ _ _
    rintro b rfl
    exact plain b _ _ calls
  · exact Progress.moved.inj moves ▸ quiet_index calm _ _ _ _
  · exact Progress.moved.inj moves ▸ quiet_setIndex calm _ _ _ _ _
  · cases moves
  · split at moves
    · cases moves
    · rename_i f rest same
      exact Progress.moved.inj moves ▸
        quiet_receive (below same) (calm.frames f (by simp [same])) _
  · split at moves
    · rename_i f rest same
      exact Progress.moved.inj moves ▸ quiet_unwind (below same) _ _
    · split at moves
      · cases moves
      · cases moves
      · exact Progress.moved.inj moves ▸ calm.go rfl
      · cases moves
      · cases moves

theorem asked_of_step (asks : s.step = .asked q next) : next = s ∧ s.control = .ask q := by
  unfold step at asks
  split at asks <;> try cases asks
  · rename_i asked
    exact ⟨rfl, asked⟩
  · split at asks <;> cases asks
  · split at asks
    · cases asks
    · split at asks <;> cases asks

theorem heap_of_stopped (stops : s.step = .stopped stop last) : last = s.heap := by
  unfold step at stops
  split at stops <;> try cases stops
  · split at stops <;> cases stops
    rfl
  · split at stops
    · cases stops
    · split at stops <;> cases stops <;> rfl

/-! ### Searches -/

/-- Where a guest stands in a search, and the file that it is about to find: it is quiet, asks for a
file, or has been given the content of one or told that there is none. -/
inductive Searching (content : Bytes → Option Bytes) : State → Option Bytes → Prop where
  | quiet {s : State} : s.Quiet → Searching content s none
  | asks {s : State} {path message : Bytes} {todo : List Bytes} {load : Option Bytes}
      {site : Option Site} : s.Calm →
      Searching content
        { s with
          control := .ask (.readFile path)
          frames := .opened path todo message load site :: s.frames }
        (Search.firstOf content (path :: todo))
  | found {s : State} {path message text : Bytes} {todo : List Bytes} {load : Option Bytes}
      {site : Option Site} : s.Calm →
      Searching content
        { s with
          control := .values [.str text]
          frames := .opened path todo message load site :: s.frames } none
  | missed {s : State} {path message : Bytes} {todo : List Bytes} {load : Option Bytes}
      {site : Option Site} : s.Calm →
      Searching content
        { s with
          control := .values [.nil]
          frames := .opened path todo message load site :: s.frames }
        (Search.firstOf content todo)

theorem Searching.heap (searching : Searching content s due) : s.heap.Quiet := by
  cases searching with
  | quiet quiet => exact quiet.calm.heap
  | asks calm | found calm | missed calm => exact calm.heap

/-- A guest does not stop in a search. -/
theorem Searching.due_of_stopped (searching : Searching content s due)
    (stops : s.step = .stopped stop last) : due = none := by
  cases searching with
  | quiet | found => rfl
  | asks | missed => cases stops

section Begins

variable (calm : s.Calm)
include calm

theorem searching_openNext (files : List Bytes) (message : Bytes) (load : Option Bytes)
    (site : Option Site) :
    Searching content (s.openNext files message load site) (Search.firstOf content files) := by
  cases files with
  | nil => exact .quiet (quiet_give calm _)
  | cons path rest => exact .asks calm

/-- What has been found ends the search. -/
theorem quiet_found (text path : Bytes) (todo : List Bytes) (message : Bytes)
    (load : Option Bytes) (site : Option Site) :
    (s.opened (.str text) path todo message load site).Quiet := by
  cases load with
  | none => exact quiet_give calm _
  | some name =>
    simp only [opened]
    split
    · rename_i loads
      exact (calm.withHeap (quiet_load calm.heap loads)).go rfl
    · exact quiet_raise calm _

variable {b : Builtin} {args : List Value} {site : Option Site}

/-- A function that looks for files begins the search that its arguments say, or none. -/
theorem searching_builtin (looks : b.searches = true)
    (calls : s.control = .call (.builtin b) args site) :
    Searching content (s.builtin b args site) (s.search?.bind (Search.finds? content)) := by
  have none_begun (message : String) : Searching content (s.fail site message) none :=
    .quiet (quiet_fail calm _ _)
  cases b with
  | fileSearcher =>
    simp only [search?, calls, builtin]
    cases Args.text ⟨Builtin.fileSearcher.name, args⟩ 0 with
    | error => simpa using none_begun _
    | ok name =>
      simp only [searchFiles]
      cases s.heap.member s.heap.package "path" with
      | str templates => exact searching_openNext calm _ _ _ _
      | _ => exact none_begun _
  | searchpath =>
    simp only [search?, calls, builtin]
    generalize Args.mk Builtin.searchpath.name args = a
    cases a.text 0 with
    | error => exact none_begun _
    | ok name =>
      cases a.textOr 2 [Require.dot] with
      | error => exact none_begun _
      | ok separator =>
        cases a.textOr 3 [Require.slash] with
        | error => exact none_begun _
        | ok replacement =>
          cases a.text 1 with
          | error => exact none_begun _
          | ok templates => exact searching_openNext calm _ _ _ _
  | _ => cases looks

end Begins

theorem search?_eq_none
    (plain : ∀ b args site, s.control = .call (.builtin b) args site → b.searches = false) :
    s.search? = none := by
  unfold search?
  split
  · rename_i calls
    cases plain _ _ _ calls
  · rename_i calls
    cases plain _ _ _ calls
  · rfl

/-- A step goes on with a search, ends it or begins another. -/
theorem Searching.moved (searching : Searching content s due) (moves : s.step = .moved next) :
    ∃ last, Searching content next last ∧
      last.toList = due.toList ++ (s.search?.bind (Search.finds? content)).toList := by
  cases searching with
  | quiet quiet =>
    refine ⟨_, ?_, rfl⟩
    by_cases looks : ∃ b args site, s.control = .call (.builtin b) args site ∧ b.searches = true
    · obtain ⟨b, args, site, calls, looks⟩ := looks
      have moves : State.Progress.moved (s.builtin b args site) = .moved next := by
        rw [← moves, step, calls]
        rfl
      exact Progress.moved.inj moves ▸ searching_builtin quiet.calm looks calls
    · have plain : ∀ b args site, s.control = .call (.builtin b) args site →
          b.searches = false := by
        intro b args site calls
        exact Bool.eq_false_iff.mpr fun also => looks ⟨b, args, site, calls, also⟩
      rw [search?_eq_none plain]
      exact .quiet (quiet_step quiet plain moves)
  | asks => cases moves
  | found calm =>
    obtain rfl := Progress.moved.inj moves
    exact ⟨none, .quiet (quiet_found calm _ _ _ _ _ _), rfl⟩
  | missed calm =>
    obtain rfl := Progress.moved.inj moves
    exact ⟨_, searching_openNext calm _ _ _ _, by simp [search?]⟩

end State

end ScriptGate.Lua
