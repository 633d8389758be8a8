import ScriptGate.Engine
import ScriptGate.Proofs.Guest.Host

/-!
# Which script decides the answer

A run of a script is taken as what it declares, how it ends and the state that it leaves. `Decides`
says what the runs of the prepare script and of the script of the method come to: the first answer
that is closed counts, however its script ends; a script that fails before that fails the call; and
what is pending is handed from the first script to the second. An answer is kept only where the
module that it was declared in is still the one of the call. `Engine.sequence` decides exactly so
for runs of any kind, and `Engine.execute` for the scripts that it finds.
-/

namespace ScriptGate

open Guest (Surroundings Declaration Module isGenuine seedKey Argument.int)
open Guest.Declaration (applyAll heard Answers Ordered)
open Answer (Reply)
open Lua (Heap)

namespace Guest

/-- Whether the module with the answer, among the loaded ones, is that of a call: a table whose
seed, read as an integer is, is the seed of the call. -/
def IsOwn (h : Heap) (loaded : Nat) (seed : Int64) : Prop :=
  ∃ place, h.member loaded Module.session.name = .table place ∧
    Argument.int (h.member place seedKey) = .ok seed

theorem isGenuine_iff {h : Heap} {loaded : Nat} {seed : Int64} :
    isGenuine h loaded seed = true ↔ IsOwn h loaded seed := by
  have read (v : Lua.Value) :
      Argument.optional Argument.int v = .ok (some seed) ↔ Argument.int v = .ok seed := by
    cases v with
    | nil => simp [Argument.optional, Lua.Value.isNil, Argument.int, Lua.Value.toNumber?]
    | _ =>
      simp only [Argument.optional, Lua.Value.isNil]
      cases Argument.int _ <;> simp [Except.map]
  unfold isGenuine IsOwn
  split
  · rename_i place shape
    rw [shape]
    constructor
    · intro genuine
      refine ⟨place, rfl, (read _).mp ?_⟩
      split at genuine
      · rename_i s reads
        rw [reads, eq_of_beq genuine]
      · cases genuine
    · rintro ⟨other, same, reads⟩
      obtain rfl : place = other := by simpa using same
      simp [(read _).mpr reads]
  · rename_i plain
    constructor
    · intro absurdity
      cases absurdity
    · rintro ⟨place, shape, -⟩
      exact absurd shape (plain place)

namespace Declaration

/-- Whether one of the declarations closes the answer. -/
def closes (cs : List Declaration) : Bool := cs.any isFinal

theorem isClosed_applyAll {d : Answer.Draft} (is_open : d.isClosed = false)
    (cs : List Declaration) : (applyAll d cs).isClosed = closes cs := by
  induction cs generalizing d with
  | nil => exact is_open
  | cons c rest ih =>
    have first := isClosed_apply is_open c
    have step : applyAll d (c :: rest) = applyAll (c.apply d) rest := rfl
    rw [step, closes, List.any_cons]
    cases final : c.isFinal with
    | true => rw [applyAll_of_closed (first.trans final), first, final, Bool.true_or]
    | false => rw [ih (first.trans final), Bool.false_or, closes]

end Declaration

end Guest

open Guest.Declaration (closes isClosed_applyAll)

namespace Engine

/-- A run of a script: what it declares, in order, how it ends, and the state that it leaves. -/
structure ScriptRun where
  declared : List Declaration
  exit : Exit
  after : State

/-- A run is that of a script in a state: the script ends so, and has changed the answer by what it
has declared. -/
structure ScriptRun.IsOf (r : ScriptRun) (script : State → Exit × State) (s : State) : Prop where
  ends : script s = (r.exit, r.after)
  draft : r.after.world.draft = applyAll s.world.draft r.declared
  ordered : ∀ c ∈ r.declared, c.Ordered

/-- The answer that is shown where something has been declared: the reply to it, or null where the
module with the answer is not that of the call. -/
inductive Shows (e : Surroundings) (loaded : Nat) (s : State) (cs : List Declaration) :
    Reply → Prop where
  | own {reply : Reply} : Guest.IsOwn s.heap loaded e.seed → Answers (heard cs) reply →
      Shows e loaded s cs reply
  | replaced : ¬ Guest.IsOwn s.heap loaded e.seed → Shows e loaded s cs (.result .null)

/-- What a run of the prepare script and one of the script of the method come to, and where the call
ends. Only the last three cases have a second run. -/
inductive Decides (e : Surroundings) (loaded : Nat) (p m : ScriptRun) :
    Except Fault Reply → State → Prop where
  | prepareCloses {reply : Reply} : closes p.declared = true →
      Shows e loaded p.after p.declared reply → Decides e loaded p m (.ok reply) p.after
  | prepareFails {message : String} : closes p.declared = false → p.exit = .raised message →
      Decides e loaded p m (.error (.prepare message)) p.after
  | closes {reply : Reply} : closes p.declared = false → p.exit = .completed →
      closes m.declared = true → Shows e loaded m.after (p.declared ++ m.declared) reply →
      Decides e loaded p m (.ok reply) m.after
  | fails {message : String} : closes p.declared = false → p.exit = .completed →
      closes m.declared = false → m.exit = .raised message →
      Decides e loaded p m (.error (.script message)) m.after
  | completes {reply : Reply} : closes p.declared = false → p.exit = .completed →
      closes m.declared = false → m.exit = .completed →
      Shows e loaded m.after (p.declared ++ m.declared) reply →
      Decides e loaded p m (.ok reply) m.after

variable {e : Surroundings} {loaded : Nat} {s : State} {cs : List Declaration} {p m : ScriptRun}

theorem Shows.unique {first second : Reply} (one : Shows e loaded s cs first)
    (other : Shows e loaded s cs second) : first = second := by
  cases one with
  | own is_own answers =>
    cases other with
    | own _ answers' => exact answers.unique answers'
    | replaced foreign => exact absurd is_own foreign
  | replaced foreign =>
    cases other with
    | own is_own => exact absurd is_own foreign
    | replaced => rfl

theorem shows_finish (e : Surroundings) (loaded : Nat) (draft : s.world.draft = applyAll {} cs)
    (ordered : ∀ c ∈ cs, c.Ordered) : Shows e loaded s cs (finish e loaded s) := by
  unfold finish
  split
  · rename_i genuine
    rw [draft]
    exact .own (Guest.isGenuine_iff.mp genuine) (Guest.Declaration.answers_finish ordered)
  · rename_i foreign
    exact .replaced fun is_own => foreign (Guest.isGenuine_iff.mpr is_own)

theorem Decides.unique {first second : Except Fault Reply} {s t : State}
    (one : Decides e loaded p m first s) (other : Decides e loaded p m second t) :
    first = second ∧ s = t := by
  -- Two different cases disagree on what the runs declare or on how they end.
  cases one <;> cases other <;> simp_all
  all_goals exact Shows.unique ‹_› ‹_›

/-- Whatever two scripts do, they come to what their runs decide; of the second script nothing is
asked where the first closes the answer or fails. -/
theorem decides_sequence (e : Surroundings) (loaded : Nat) {prepare main : State → Exit × State}
    (fresh : s.world.draft = {}) (first : p.IsOf prepare s)
    (second : p.exit = .completed → closes p.declared = false → m.IsOf main p.after) :
    Decides e loaded p m
      (sequence (·.world.draft.isClosed) (finish e loaded) (some prepare) main s).1
      (sequence (·.world.draft.isClosed) (finish e loaded) (some prepare) main s).2 := by
  have draft : p.after.world.draft = applyAll {} p.declared := fresh ▸ first.draft
  have closed : p.after.world.draft.isClosed = closes p.declared := by
    rw [draft, isClosed_applyAll rfl]
  have shows := shows_finish e loaded draft first.ordered
  have ran := first.ends
  cases ends : p.exit with
  | raised message =>
    rw [ends] at ran
    cases closing : closes p.declared with
    | true => simpa [sequence, ran, closed, closing] using .prepareCloses closing shows
    | false => simpa [sequence, ran, closed, closing] using .prepareFails closing ends
  | completed =>
    rw [ends] at ran
    cases closing : closes p.declared with
    | true => simpa [sequence, ran, closed, closing] using .prepareCloses closing shows
    | false =>
      have then_main := second ends closing
      have draft' : m.after.world.draft = applyAll {} (p.declared ++ m.declared) := by
        rw [then_main.draft, draft, Guest.Declaration.applyAll_append]
      have closed' : m.after.world.draft.isClosed = closes m.declared := by
        rw [draft', isClosed_applyAll rfl, closes, List.any_append, ← closes, closing,
          Bool.false_or, closes]
      have shows' := shows_finish e loaded draft' fun c member =>
        (List.mem_append.mp member).elim (first.ordered c) (then_main.ordered c)
      have ran' := then_main.ends
      cases ends' : m.exit with
      | completed =>
        rw [ends'] at ran'
        cases closing' : closes m.declared with
        | true =>
          simpa [sequence, ran, ran', closed, closing] using .closes closing ends closing' shows'
        | false =>
          simpa [sequence, ran, ran', closed, closing] using
            .completes closing ends closing' ends' shows'
      | raised message =>
        rw [ends'] at ran'
        cases closing' : closes m.declared with
        | true =>
          simpa [sequence, ran, ran', closed, closing, closed', closing'] using
            .closes closing ends closing' shows'
        | false =>
          simpa [sequence, ran, ran', closed, closing, closed', closing'] using
            .fails closing ends closing' ends'

/-! ### The scripts of a call -/

def runOf (e : Surroundings) (source : Bytes) (name : String) (s : State) : ScriptRun where
  declared :=
    match s.heap.load source (Bytes.ofString ("@" ++ name)) (.table s.heap.globals) with
    | .error _ => []
    | .ok (f, heap) =>
      Guest.Host.declarations e stepLimit ⟨.call f [] none, [], heap, 0⟩ s.world
  exit := (runScript e source name s).1
  after := (runScript e source name s).2

theorem runOf_isOf (e : Surroundings) (source : Bytes) (name : String) (s : State) :
    (runOf e source name s).IsOf (runScript e source name) s where
  ends := rfl
  draft := by
    unfold runOf runScript
    dsimp only
    cases s.heap.load source (Bytes.ofString ("@" ++ name)) (.table s.heap.globals) with
    | error message => rfl
    | ok loaded =>
      obtain ⟨f, heap⟩ := loaded
      have drafts := Guest.Host.run_draft e stepLimit ⟨.call f [] none, [], heap, 0⟩ s.world
      dsimp only
      rw [← drafts]
      split <;> rename_i stopped <;> rw [stopped]
  ordered := by
    unfold runOf
    dsimp only
    split
    · simp
    · exact fun c member => (Guest.Host.declarations_fit _ _ _ _ c member).ordered

def surroundings (g : Engine) (t : FileTree) (now : Int) (call : Guest.Call) : Surroundings where
  call
  seed :=
    (Lua.Library.Arithmetic.mix (Lua.Library.Arithmetic.advance g.random)).toInt64
  costs := g.costs
  now
  network := g.network
  file := fileIn t

def start (g : Engine) (now : Int) : State :=
  let random := Lua.Library.Arithmetic.advance (Lua.Library.Arithmetic.advance g.random)
  { heap := Module.install (Heap.initial g.root now (Lua.Library.Arithmetic.mix random))
    world := { pool := g.pool, random } }

def leave (g : Engine) (answer : Except Fault Reply) (s : State) : Outcome :=
  ⟨answer, s.world.journal.reverse, { g with pool := s.world.pool, random := s.world.random },
    s.world.opened.reverse⟩

/-- The run of the prepare script of a call; without one, a run that does nothing. -/
def prepareRun (g : Engine) (t : FileTree) (now : Int) (call : Guest.Call) : ScriptRun :=
  match fileIn t (Path.append g.root prepareScript) with
  | some source => runOf (g.surroundings t now call) source prepareScript (g.start now)
  | none => ⟨[], .completed, g.start now⟩

/-- The run of the script of a method behind that of the prepare script. -/
def methodRun (g : Engine) (t : FileTree) (now : Int) (call : Guest.Call) (source : Bytes) :
    ScriptRun :=
  runOf (g.surroundings t now call) source call.script (g.prepareRun t now call).after

theorem sequence_none {finish : State → Reply} {main : State → Exit × State}
    (is_open : s.world.draft.isClosed = false) :
    sequence (·.world.draft.isClosed) finish none main s =
      sequence (·.world.draft.isClosed) finish (some fun s => (.completed, s)) main s := by
  simp [sequence, is_open]

theorem execute_eq (g : Engine) {t : FileTree} (now : Int) {call : Guest.Call} {source : Bytes}
    (found : fileIn t (Path.append g.root call.script) = some source) :
    let e := g.surroundings t now call
    let ends := sequence (·.world.draft.isClosed) (finish e (g.start now).heap.loaded)
      ((fileIn t (Path.append g.root prepareScript)).map (runScript e · prepareScript))
      (runScript e source call.script) (g.start now)
    g.execute t now call = g.leave ends.1 ends.2 := by
  unfold execute
  dsimp only
  rw [found]
  rfl

theorem execute_of_completed (g : Engine) {t : FileTree} (now : Int) {call : Guest.Call}
    {source : Bytes} (found : fileIn t (Path.append g.root call.script) = some source)
    (alone : fileIn t (Path.append g.root prepareScript) = none)
    (completed : (runOf (g.surroundings t now call) source call.script (g.start now)).exit =
      .completed) :
    let e := g.surroundings t now call
    let last := (runOf e source call.script (g.start now)).after
    g.execute t now call = g.leave (.ok (finish e (g.start now).heap.loaded last)) last := by
  intro e last
  have ends : runScript e source call.script (g.start now) = (.completed, last) :=
    Prod.ext completed rfl
  rw [execute_eq g now found, alone]
  simp only [sequence, Option.map_none]
  rw [ends]

/-- The runs of a prepare script and of a script of a method decide the answer, whatever the two do;
and those of the scripts that a call finds decide its answer and where it ends. -/
theorem answer_iff_decides :
    (∀ (e : Surroundings) (loaded : Nat) (prepare main : State → Exit × State) (s : State)
      (p m : ScriptRun), s.world.draft = {} → p.IsOf prepare s →
      (p.exit = .completed → closes p.declared = false → m.IsOf main p.after) →
      ∀ answer last,
        sequence (·.world.draft.isClosed) (finish e loaded) (some prepare) main s = (answer, last) ↔
          Decides e loaded p m answer last) ∧
    ∀ (g : Engine) (t : FileTree) (now : Int) (call : Guest.Call) (source : Bytes),
      fileIn t (Path.append g.root call.script) = some source →
      ∃ answer last, g.execute t now call = g.leave answer last ∧
        Decides (g.surroundings t now call) (g.start now).heap.loaded (g.prepareRun t now call)
          (g.methodRun t now call source) answer last := by
  constructor
  · intro e loaded prepare main s p m fresh first second answer last
    have decides := decides_sequence e loaded fresh first second
    constructor
    · intro ends
      rw [ends] at decides
      exact decides
    · intro also
      obtain ⟨rfl, rfl⟩ := decides.unique also
      rfl
  · intro g t now call source found
    have fresh : (g.start now).world.draft = {} := rfl
    refine ⟨_, _, execute_eq g now found, ?_⟩
    have second := runOf_isOf (g.surroundings t now call) source call.script
      (g.prepareRun t now call).after
    cases prepares : fileIn t (Path.append g.root prepareScript) with
    | none =>
      have first : (g.prepareRun t now call).IsOf (fun s => (.completed, s)) (g.start now) := by
        unfold prepareRun
        rw [prepares]
        exact ⟨rfl, rfl, by simp⟩
      rw [Option.map_none, sequence_none rfl]
      exact decides_sequence _ _ fresh first fun _ _ => second
    | some source' =>
      have first : (g.prepareRun t now call).IsOf
          (runScript (g.surroundings t now call) source' prepareScript) (g.start now) := by
        unfold prepareRun
        rw [prepares]
        exact runOf_isOf ..
      rw [Option.map_some]
      exact decides_sequence _ _ fresh first fun _ _ => second

/-! ### Two calls -/

def plainCall : Guest.Call where
  caller := { session := "s" }
  method := "m"
  params := .null
  script := "m.lua"

def plainEngine : Engine where
  root := ""
  costs := ⟨4, 4, 4⟩
  network _ := .error "unreachable"

theorem plain_paths :
    Path.components (Path.append plainEngine.root plainCall.script) = [.ordinary "m.lua"] ∧
      Path.components (Path.append plainEngine.root prepareScript) =
        [.ordinary "_prepare.lua"] := by
  decide +kernel

/-- A path that is one name leads to the file of the name among those of the base directory. -/
theorem fileIn_base {name path : String} (components : Path.components path = [.ordinary name])
    (files : List (String × Bytes)) :
    fileIn ⟨files.map fun f => ([f.1], .file f.2)⟩ path = files.lookup name := by
  have looks_up : (files.map fun f => ([f.1], Entry.file f.2)).lookup [name] =
      (files.lookup name).map .file := by
    induction files with
    | nil => rfl
    | cons f rest ih =>
      rw [List.map_cons, List.lookup_cons, List.lookup_cons, ih]
      by_cases same : name = f.1
      · simp [same]
      · simp [beq_false_of_ne same]
  rw [fileIn, components, FileTree.read?, FileTree.locate]
  cases found : files.lookup name <;>
    simp [FileTree.walk, FileTree.walkWith, FileTree.maxLinks, FileTree.entry?, looks_up, found]

/-- A prepare script that closes the answer, catches the halt and then fails: the script of the
method does not run. -/
theorem answer_of_caught_halt :
    let method := Bytes.ofString "require('internal.session').response.send(2)"
    let t : FileTree := ⟨[(["m.lua"], .file method), (["_prepare.lua"], .file (Bytes.ofString
      "pcall(require('internal.session').response.send, 1) error('late')"))]⟩
    fileIn t (Path.append plainEngine.root plainCall.script) = some method ∧
      ∃ last, plainEngine.execute t 0 plainCall = plainEngine.leave (.ok (.result (.int 1))) last ∧
        Decides (plainEngine.surroundings t 0 plainCall) (plainEngine.start 0).heap.loaded
          (plainEngine.prepareRun t 0 plainCall) (plainEngine.methodRun t 0 plainCall method)
          (.ok (.result (.int 1))) last := by
  intro method t
  have found : fileIn t (Path.append plainEngine.root plainCall.script) = some method := by
    exact fileIn_base plain_paths.1 [("m.lua", method), ("_prepare.lua", _)]
  have prepares : fileIn t (Path.append plainEngine.root prepareScript) = some (Bytes.ofString
      "pcall(require('internal.session').response.send, 1) error('late')") := by
    exact fileIn_base plain_paths.2 [("m.lua", method), ("_prepare.lua", _)]
  obtain ⟨answer, last, executes, decides⟩ :=
    answer_iff_decides.2 plainEngine t 0 plainCall method found
  have answers : answer = .ok (.result (.int 1)) := by
    have same := congrArg Outcome.answer (executes.symm.trans (execute_eq plainEngine 0 found))
    rw [prepares] at same
    refine same.trans ?_
    decide +kernel
  rw [answers] at executes decides
  exact ⟨found, last, executes, decides⟩

/-- Whether `package.loaded["internal.session"]`, as a script reads it, is a table whose seed is the
integer of the call. -/
def readsOwn (h : Heap) (seed : Int64) : Bool :=
  match h.member h.globals "package" with
  | .table package =>
    match h.member package "loaded" with
    | .table modules =>
      match h.member modules Module.session.name with
      | .table place => h.member place seedKey == .int seed
      | _ => false
    | _ => false
  | _ => false

/-- What a script reads does not settle the matter: an answer stays where a script has hidden the
loaded modules from view, and where the seed has become the text that writes it. -/
theorem answer_of_hidden_modules :
    let source (late : String) :=
      Bytes.ofString ("local s = require('internal.session') s.response.set(1) " ++ late)
    let t (late : String) : FileTree := ⟨[(["m.lua"], .file (source late))]⟩
    let e (late : String) := plainEngine.surroundings (t late) 0 plainCall
    let last (late : String) :=
      (runOf (e late) (source late) plainCall.script (plainEngine.start 0)).after
    let stays (late : String) :=
      plainEngine.execute (t late) 0 plainCall =
          plainEngine.leave (.ok (.result (.int 1))) (last late) ∧
        readsOwn (last late).heap (e late).seed = false
    stays "package.loaded = {}" ∧ stays "s.__seed = tostring(s.__seed)" := by
  intro source t e last stays
  have ran : ∀ late ∈ ["package.loaded = {}", "s.__seed = tostring(s.__seed)"],
      (runOf (e late) (source late) plainCall.script (plainEngine.start 0)).exit = .completed ∧
        finish (e late) (plainEngine.start 0).heap.loaded (last late) = .result (.int 1) ∧
        readsOwn (last late).heap (e late).seed = false := by
    decide +kernel
  have each (late : String)
      (listed : late ∈ ["package.loaded = {}", "s.__seed = tostring(s.__seed)"]) : stays late := by
    obtain ⟨completed, result, hidden⟩ := ran late listed
    have found : fileIn (t late) (Path.append plainEngine.root plainCall.script) =
        some (source late) := fileIn_base plain_paths.1 [("m.lua", source late)]
    have alone : fileIn (t late) (Path.append plainEngine.root prepareScript) = none :=
      fileIn_base plain_paths.2 [("m.lua", source late)]
    refine ⟨?_, hidden⟩
    rw [execute_of_completed plainEngine 0 found alone completed]
    exact congrArg (fun reply => plainEngine.leave (.ok reply) (last late)) result
  exact ⟨each _ (by simp), each _ (by simp)⟩

end Engine

end ScriptGate
