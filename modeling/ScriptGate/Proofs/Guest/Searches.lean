import ScriptGate.Proofs.Guest.Reactions
import ScriptGate.Proofs.Lua.Searches

/-!
# The files that a guest opens

The host opens a file only where a guest asks for one, and a guest asks only for the files of its
searches, each search ending with the first of its files that is there. `searches` lists the
searches of a run, and `run_opened` says that the files it opens are the ones they find.
-/

namespace ScriptGate.Guest.Host

open Lua (Heap Search)
open Lua.State (Searching)

def contentOf (e : Surroundings) (path : Bytes) : Option Bytes := path.toString?.bind e.file

/-- The searches of a run, in order. -/
def searches (e : Surroundings) : (fuel : Nat) → Lua.State → World → List Search
  | 0, _, _ => []
  | fuel + 1, s, w =>
    match s.step with
    | .moved next => s.search?.toList ++ searches e fuel next w
    | .stopped _ _ => []
    | .asked q s =>
      let r := react e w s.heap q
      searches e fuel (resume s r) r.world

variable {e : Surroundings} {s next : Lua.State} {due : Option Bytes} {q : Lua.Question}

theorem declare_keeps (w : World) (h : Heap) (d : Except Fault Declaration) :
    (declare w h d).world.opened = w.opened ∧ (declare w h d).heap = h := by
  cases d <;> exact ⟨rfl, rfl⟩

/-- Only a question for a file opens one. -/
theorem react_opened (e : Surroundings) (w : World) {h : Heap} (quiet : h.Quiet)
    (other : ∀ path, q ≠ .readFile path) :
    (react e w h q).world.opened = w.opened ∧ (react e w h q).heap.Quiet := by
  cases q with
  | call f args =>
    cases reads : Declaration.read f h args with
    | none =>
      have aside := aside_call (e := e) (w := w) reads
      exact ⟨aside.world.opened, aside.heap quiet⟩
    | some d =>
      obtain ⟨opened, same⟩ := declare_keeps w h d
      rw [react, call_of_read reads, same]
      exact ⟨opened, quiet⟩
  | member o key => exact ⟨(aside_member ..).world.opened, (aside_member ..).heap quiet⟩
  | setMember => exact ⟨rfl, quiet⟩
  | readFile path => exact absurd rfl (other path)

theorem quiet_resume (calm : s.Calm) {r : Reaction} (quiet : r.heap.Quiet) :
    (resume s r).Quiet := by
  unfold resume
  split
  · exact (calm.withHeap quiet).go rfl
  · exact Lua.State.quiet_raise (calm.withHeap (Lua.quiet_newFailure.mpr quiet)) _

/-- A file is opened where a guest asks for one that is there, and this is the one that its search
is about to find. -/
theorem searching_resume (w : World) (searching : Searching (contentOf e) s due)
    (asks : s.step = .asked q next) :
    let r := react e w next.heap q
    ∃ last, Searching (contentOf e) (resume next r) last ∧
      r.world.opened.reverse ++ last.toList = w.opened.reverse ++ due.toList := by
  cases searching with
  | quiet quiet =>
    obtain ⟨rfl, control⟩ := Lua.State.asked_of_step asks
    have other : ∀ path, q ≠ .readFile path := by
      rintro path rfl
      have plain := quiet.control
      rw [control] at plain
      cases plain
    obtain ⟨opened, settled⟩ := react_opened e w quiet.calm.heap other
    refine ⟨none, .quiet (quiet_resume quiet.calm settled), ?_⟩
    rw [opened]
  | @asks base path message todo load site calm =>
    obtain ⟨rfl, rfl⟩ := Lua.State.Progress.asked.inj asks
    cases content : contentOf e path with
    | some text =>
      have read : path.toString?.bind e.file = some text := content
      simp only [react, read]
      exact ⟨none, .found calm, by simp [Search.firstOf, content]⟩
    | none =>
      have read : path.toString?.bind e.file = none := content
      simp only [react, read]
      exact ⟨_, .missed calm, by simp [Search.firstOf, content]⟩
  | found => cases asks
  | missed => cases asks

/-- The files that a run opens are, in order, those that its searches find; only where the fuel runs
out may the last search be cut short. -/
theorem run_opened (fuel : Nat) (w : World) (searching : Searching (contentOf e) s due) :
    let found := w.opened.reverse ++ due.toList ++
      (searches e fuel s w).filterMap (Search.finds? (contentOf e))
    (run e fuel s w).2.2.opened.reverse <+: found ∧
      ((run e fuel s w).1.isSome → (run e fuel s w).2.2.opened.reverse = found) ∧
      (run e fuel s w).2.1.Quiet := by
  induction fuel generalizing s w due with
  | zero => exact ⟨by simp [run], nofun, searching.heap⟩
  | succ fuel ih =>
    cases stepped : s.step with
    | moved next =>
      obtain ⟨last, further, same⟩ := searching.moved stepped
      have begun : s.search?.toList.filterMap (Search.finds? (contentOf e)) =
          (s.search?.bind (Search.finds? (contentOf e))).toList := by
        cases s.search? with
        | none => rfl
        | some q => simp only [Option.toList, List.filterMap_cons, Option.bind]; rfl
      simpa only [run, searches, stepped, same, List.filterMap_append, begun, List.append_assoc]
        using ih w further
    | stopped stop last =>
      obtain rfl := searching.due_of_stopped stepped
      simp only [run, searches, stepped]
      exact ⟨by simp, by simp, Lua.State.heap_of_stopped stepped ▸ searching.heap⟩
    | asked q next =>
      obtain ⟨last, further, same⟩ := searching_resume w searching stepped
      simpa only [run, searches, stepped, ← same] using ih _ further

end ScriptGate.Guest.Host
