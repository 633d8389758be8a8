import ScriptGate.Proofs.Engine
import ScriptGate.Proofs.Guest.Searches
import ScriptGate.Proofs.Lua.Require

/-!
# The files that the scripts of a call open

`searches` lists what the scripts of a call look for. The files that the call opens are those that
these searches find, and a module is found below the directory of the scripts as long as
`package.path` has not been changed and its name has no semicolon. Nothing keeps a script from
either, so that it can open a file that is somewhere else (`opened_outside`).
-/

namespace ScriptGate.Engine

open Guest (Surroundings)
open Guest.Host (contentOf)
open Lua (Search)
open Lua.Require (IsRoot ownTemplates semicolon)

variable {s : State}

/-! ### One script -/

def searchesOf (e : Surroundings) (source : Bytes) (name : String) (s : State) : List Search :=
  match s.heap.load source (Bytes.ofString ("@" ++ name)) (.table s.heap.globals) with
  | .error _ => []
  | .ok (f, heap) => Guest.Host.searches e stepLimit ⟨.call f [] none, [], heap, 0⟩ s.world

/-- A script opens the files that its searches find; one that is interrupted, the first of them. -/
theorem runScript_opened (e : Surroundings) (source : Bytes) (name : String)
    (quiet : s.heap.Quiet) :
    let found := s.world.opened.reverse ++
      (searchesOf e source name s).filterMap (Search.finds? (contentOf e))
    let last := (runScript e source name s).2
    last.world.opened.reverse <+: found ∧
      ((runScript e source name s).1 = .completed → last.world.opened.reverse = found) ∧
      last.heap.Quiet := by
  unfold searchesOf runScript
  dsimp only
  cases loads : s.heap.load source (Bytes.ofString ("@" ++ name)) (.table s.heap.globals) with
  | error message => exact ⟨by simp, fun absurdity => (by cases absurdity), quiet⟩
  | ok loaded =>
    obtain ⟨f, heap⟩ := loaded
    have begins : (⟨.call f [] none, [], heap, 0⟩ : Lua.State).Quiet :=
      ⟨⟨by simp, Lua.State.quiet_load quiet loads⟩, rfl⟩
    obtain ⟨lead, whole, last⟩ := Guest.Host.run_opened (e := e) stepLimit s.world (.quiet begins)
    simp only [Option.toList_none, List.append_nil] at lead whole
    dsimp only
    rcases stopped : Guest.Host.run e stepLimit ⟨.call f [] none, [], heap, 0⟩ s.world with
      ⟨stop, after, world⟩
    rw [stopped] at lead whole last
    cases stop with
    | none => exact ⟨lead, fun absurdity => (by cases absurdity), last⟩
    | some stop =>
      cases stop with
      | finished => exact ⟨lead, fun _ => whole rfl, last⟩
      | failed => exact ⟨lead, fun absurdity => (by cases absurdity), last⟩

/-! ### All scripts of a call -/

theorem quiet_start (g : Engine) (now : Int) : (g.start now).heap.Quiet := by
  have threads : (g.start now).heap.threads = #[{ status := .running }] := rfl
  rw [Lua.Heap.Quiet, threads]
  simp

/-- The searches of the prepare script of a call, in order. -/
def prepareSearches (g : Engine) (t : FileTree) (now : Int) (call : Guest.Call) : List Search :=
  match fileIn t (Path.append g.root prepareScript) with
  | some source => searchesOf (g.surroundings t now call) source prepareScript (g.start now)
  | none => []

/-- Whether the prepare script of a call leaves the answer to the script of the method. -/
def handsOver (g : Engine) (t : FileTree) (now : Int) (call : Guest.Call) : Bool :=
  let p := g.prepareRun t now call
  p.exit = .completed && !p.after.world.draft.isClosed

/-- The searches of the scripts that a call runs, in order. -/
def searches (g : Engine) (t : FileTree) (now : Int) (call : Guest.Call) : List Search :=
  match fileIn t (Path.append g.root call.script) with
  | none => []
  | some source =>
    g.prepareSearches t now call ++
      if g.handsOver t now call then
        searchesOf (g.surroundings t now call) source call.script (g.prepareRun t now call).after
      else []

variable {g : Engine} {t : FileTree} {now : Int} {call : Guest.Call} {source : Bytes}

theorem prepareRun_opened (g : Engine) (t : FileTree) (now : Int) (call : Guest.Call) :
    let found := (g.prepareSearches t now call).filterMap
      (Search.finds? (contentOf (g.surroundings t now call)))
    let p := g.prepareRun t now call
    p.after.world.opened.reverse <+: found ∧
      (p.exit = .completed → p.after.world.opened.reverse = found) ∧ p.after.heap.Quiet := by
  unfold prepareSearches prepareRun
  cases fileIn t (Path.append g.root prepareScript) with
  | none => exact ⟨by simp [start], by simp [start], quiet_start g now⟩
  | some source => exact runScript_opened _ source prepareScript (quiet_start g now)

/-- Where a sequence ends: behind the second script, if the first hands over to it. -/
theorem sequence_snd {σ : Type} (isClosed : σ → Bool) (finish : σ → Answer.Reply)
    (prepare main : σ → Exit × σ) (s : σ) :
    (sequence isClosed finish (some prepare) main s).2 =
      if (prepare s).1 = .completed && !isClosed (prepare s).2 then (main (prepare s).2).2
      else (prepare s).2 := by
  unfold sequence
  rcases ran : prepare s with ⟨exit, after⟩
  cases closed : isClosed after with
  | true => cases exit <;> simp [ran, closed]
  | false =>
    cases exit with
    | completed =>
      simp only [ran, closed]
      rcases main after with ⟨exit', last⟩
      cases exit' <;> simp
    | raised message => simp [ran, closed]

/-- The files of a call are those of the last script that it runs. -/
theorem opened_execute (found : fileIn t (Path.append g.root call.script) = some source) :
    (g.execute t now call).opened =
      (if g.handsOver t now call then (g.methodRun t now call source).after
        else (g.prepareRun t now call).after).world.opened.reverse := by
  rw [execute_eq g now found]
  cases prepares : fileIn t (Path.append g.root prepareScript) with
  | none =>
    rw [Option.map_none, sequence_none rfl, leave, sequence_snd]
    simp only [handsOver, methodRun, prepareRun, prepares]
    rfl
  | some source' =>
    rw [Option.map_some, leave, sequence_snd]
    simp only [handsOver, methodRun, prepareRun, prepares]
    rfl

theorem completed_of_handsOver (hands : g.handsOver t now call = true) :
    (g.prepareRun t now call).exit = .completed := by
  simp only [handsOver, Bool.and_eq_true, decide_eq_true_eq] at hands
  exact hands.1

/-- The files that a call opens are those that the searches of its scripts find, in order; where a
script is interrupted, the first of them. -/
theorem opened_prefix (g : Engine) (t : FileTree) (now : Int) (call : Guest.Call) :
    (g.execute t now call).opened <+: (g.searches t now call).filterMap
      (Search.finds? (contentOf (g.surroundings t now call))) := by
  cases found : fileIn t (Path.append g.root call.script) with
  | none =>
    have none_opened : (g.execute t now call).opened = [] := by
      unfold execute
      dsimp only
      rw [found]
    rw [none_opened]
    exact List.nil_prefix
  | some source =>
    obtain ⟨lead, whole, quiet⟩ := prepareRun_opened g t now call
    rw [opened_execute found, searches, found]
    dsimp only
    rw [List.filterMap_append]
    split
    · rename_i hands
      rw [← whole (completed_of_handsOver hands)]
      exact (runScript_opened _ source call.script quiet).1
    · exact lead.trans (List.prefix_append _ _)

theorem opened_of_completed (found : fileIn t (Path.append g.root call.script) = some source)
    (hands : g.handsOver t now call = true)
    (completed : (g.methodRun t now call source).exit = .completed) :
    (g.execute t now call).opened = (g.searches t now call).filterMap
      (Search.finds? (contentOf (g.surroundings t now call))) := by
  obtain ⟨-, whole, quiet⟩ := prepareRun_opened g t now call
  rw [opened_execute found, if_pos hands, searches, found]
  dsimp only
  rw [if_pos hands, List.filterMap_append, ← whole (completed_of_handsOver hands)]
  exact (runScript_opened _ source call.script quiet).2.1 completed

/-- The files that a call opens are, in order, those that the searches of its scripts find: all of
them where its scripts complete, and the first of them however they end. Every one is there, and it
is below the directory of the scripts where it has been found for a module whose name has no
semicolon, with `package.path` as it is at first. -/
theorem opened_of_searches (g : Engine) (t : FileTree) (now : Int) (call : Guest.Call) :
    let content := contentOf (g.surroundings t now call)
    let found := (g.searches t now call).filterMap (Search.finds? content)
    (g.execute t now call).opened <+: found ∧
      (∀ source, fileIn t (Path.append g.root call.script) = some source →
        g.handsOver t now call = true → (g.methodRun t now call source).exit = .completed →
        (g.execute t now call).opened = found) ∧
      ∀ path ∈ (g.execute t now call).opened, ∃ text, path.toString? = some text ∧
        (fileIn t text).isSome ∧
        ∃ q ∈ g.searches t now call, q.finds? content = some path ∧
          (IsRoot g.root → ∀ name, q = .module (ownTemplates g.root) name → semicolon ∉ name →
            Path.IsBelow g.root text) := by
  have lead := opened_prefix g t now call
  refine ⟨lead, fun source => opened_of_completed, fun path member => ?_⟩
  obtain ⟨q, searched, finds⟩ := List.mem_filterMap.mp (lead.subset member)
  have there : (contentOf (g.surroundings t now call) path).isSome := by
    simpa using List.find?_some finds
  cases reads : path.toString? with
  | none => simp [contentOf, reads] at there
  | some text =>
    have isFile : (fileIn t text).isSome := by
      rw [contentOf, reads] at there
      exact there
    refine ⟨text, rfl, isFile, q, searched, finds, ?_⟩
    rintro isRoot name rfl whole
    exact Lua.Require.isBelow_of_own isRoot whole (List.mem_of_find?_eq_some finds) reads

/-! ### Inside and outside -/

def comEngine : Engine := { plainEngine with root := "/com" }

/-- A machine with a script `m.lua`, a module in a directory beside it, and a secret elsewhere. -/
def machine (source : Bytes) : FileTree :=
  ⟨[(["com"], .directory), (["com", "m.lua"], .file source), (["com", "lib"], .directory),
    (["com", "lib", "a.lua"], .file []), (["etc"], .directory),
    (["etc", "secret.lua"], .file [])]⟩

/-- A module in a directory is found below the directory of the scripts. -/
theorem opened_of_nested_module :
    let t := machine (Bytes.ofString "require('lib.a')")
    (comEngine.execute t 0 plainCall).opened = [Bytes.ofString "/com/lib/a.lua"] ∧
      Path.IsBelow comEngine.root "/com/lib/a.lua" := by
  intro t
  have opens : (comEngine.execute t 0 plainCall).opened = [Bytes.ofString "/com/lib/a.lua"] := by
    decide +kernel
  have looks : comEngine.searches t 0 plainCall =
      [.module (ownTemplates comEngine.root) (Bytes.ofString "lib.a")] := by
    decide +kernel
  have isRoot : IsRoot comEngine.root := ⟨by decide, by decide, by decide⟩
  obtain ⟨-, -, each⟩ := opened_of_searches comEngine t 0 plainCall
  obtain ⟨text, reads, -, q, searched, -, below⟩ :=
    each (Bytes.ofString "/com/lib/a.lua") (by simp [opens])
  rw [Bytes.toString?_ofString] at reads
  obtain rfl := Option.some.inj reads
  rw [looks, List.mem_singleton] at searched
  exact ⟨opens, below isRoot _ searched (by decide)⟩

/-- Other templates lead anywhere, and so does a semicolon in the name of a module. -/
theorem opened_outside :
    (∀ source ∈ ["package.path = '/etc/?.lua' require('secret')", "require('a;/etc/secret')"],
      (comEngine.execute (machine (Bytes.ofString source)) 0 plainCall).opened =
        [Bytes.ofString "/etc/secret.lua"]) ∧
      ¬ Path.IsBelow comEngine.root "/etc/secret.lua" := by
  refine ⟨by decide +kernel, ?_⟩
  rintro ⟨names, -, shape⟩
  have first : Path.components "/etc/secret.lua" =
      [.root, .ordinary "etc", .ordinary "secret.lua"] := by decide +kernel
  have base : Path.components comEngine.root = [.root, .ordinary "com"] := by decide +kernel
  rw [first, base] at shape
  simp at shape

end ScriptGate.Engine
