import ScriptGate.Backend
import ScriptGate.Proofs.Guest.Answer
import ScriptGate.Proofs.Guest.Reactions

/-!
# Only declarations change the answer

The host answers many questions of a guest, but the answer of the call changes only by what
`Declaration.read` can read: `declarations` lists that for a run, and `run_draft` says that a run
changes the answer as its declarations do. What a script has declared when it stops therefore fits,
and so does the answer of its call.
-/

namespace ScriptGate

open Lua (Heap Value)

namespace Guest.Host

/-- What a question declares: a call of a function of the response that can be read. -/
def declaration? (h : Heap) : Lua.Question → Option Declaration
  | .call f args _ => (Declaration.read f h args).bind Except.toOption
  | .member .. | .setMember .. | .readFile _ => none

/-- What a run declares, in order. -/
def declarations (e : Surroundings) : (fuel : Nat) → Lua.State → World → List Declaration
  | 0, _, _ => []
  | fuel + 1, s, w =>
    match s.step with
    | .moved s => declarations e fuel s w
    | .stopped _ _ => []
    | .asked q s =>
      let r := react e w s.heap q
      (declaration? s.heap q).toList ++ declarations e fuel (resume s r) r.world

theorem declare_draft (w : World) (h : Heap) (d : Except Fault Declaration) :
    (declare w h d).world.draft = d.toOption.elim w.draft (·.apply w.draft) := by cases d <;> rfl

theorem call_draft (e : Surroundings) (w : World) (h : Heap) (f : Capability) (args : List Value) :
    (call e w h f args).world.draft =
      ((Declaration.read f h args).bind Except.toOption).elim w.draft (·.apply w.draft) := by
  cases reads : Declaration.read f h args with
  | none => exact (aside_call reads).world.draft
  | some d =>
    rw [call_of_read reads]
    exact declare_draft ..

theorem react_draft (e : Surroundings) (w : World) (h : Heap) (q : Lua.Question) :
    (react e w h q).world.draft = (declaration? h q).elim w.draft (·.apply w.draft) := by
  cases q with
  | call f args => exact call_draft ..
  | member o key => exact (aside_member ..).world.draft
  | setMember => rfl
  | readFile path =>
    show (react e w h (.readFile path)).world.draft = w.draft
    unfold react
    dsimp only
    split <;> rfl

/-- A run changes the answer as its declarations do, one after the other. -/
theorem run_draft (e : Surroundings) (fuel : Nat) (s : Lua.State) (w : World) :
    (run e fuel s w).2.2.draft = Declaration.applyAll w.draft (declarations e fuel s w) := by
  induction fuel generalizing s w with
  | zero => rfl
  | succ fuel ih =>
    cases stepped : s.step with
    | moved next => simpa only [run, declarations, stepped] using ih next w
    | stopped => simp only [run, declarations, stepped]; rfl
    | asked q asking =>
      simp only [run, declarations, stepped]
      rw [ih, react_draft, Declaration.applyAll_append]
      cases declaration? asking.heap q <;> rfl

theorem declaration?_fits {h : Heap} {q : Lua.Question} {c : Declaration}
    (declares : declaration? h q = some c) : c.DataFits := by
  cases q with
  | call f args =>
    obtain ⟨read, found, converted⟩ := Option.bind_eq_some_iff.mp declares
    cases read with
    | error fault => simp [Except.toOption] at converted
    | ok d =>
      obtain rfl : d = c := Option.some.inj converted
      exact Declaration.read_fits found
  | member | setMember | readFile => simp [declaration?] at declares

theorem declarations_fit (e : Surroundings) (fuel : Nat) (s : Lua.State) (w : World) :
    ∀ c ∈ declarations e fuel s w, c.DataFits := by
  induction fuel generalizing s w with
  | zero => simp [declarations]
  | succ fuel ih =>
    cases stepped : s.step with
    | moved next => simpa only [declarations, stepped] using ih next w
    | stopped => simp [declarations, stepped]
    | asked q asking =>
      intro c member
      simp only [declarations, stepped] at member
      rcases List.mem_append.mp member with now | later
      · exact declaration?_fits (Option.mem_toList.mp now)
      · exact ih _ _ c later

theorem run_fits (e : Surroundings) (fuel : Nat) {s : Lua.State} {w : World}
    (before : w.draft.DataFits) : (run e fuel s w).2.2.draft.DataFits := by
  rw [run_draft]
  exact Declaration.applyAll_fits before (declarations_fit e fuel s w)

end Guest.Host

/-! ### The answer of a call -/

namespace Engine

theorem runScript_fits (e : Guest.Surroundings) (source : Bytes) (name : String) {s : State}
    (before : s.world.draft.DataFits) :
    (runScript e source name s).2.world.draft.DataFits := by
  unfold runScript
  split
  · exact before
  · rename_i f heap _
    have after := Guest.Host.run_fits e stepLimit (s := ⟨.call f [] none, [], heap, 0⟩) before
    split <;> rename_i stopped <;> rw [stopped] at after <;> exact after

/-- The answer that a sequence of scripts comes to fits, if each script keeps what has been
declared fit. -/
theorem sequence_fits {σ : Type} {isClosed : σ → Bool} {finish : σ → Answer.Reply}
    {prepare : Option (σ → Exit × σ)} {main : σ → Exit × σ} {P : σ → Prop} {s : σ}
    {r : Answer.Reply} (start : P s) (prepares : ∀ f, prepare = some f → ∀ s, P s → P (f s).2)
    (mains : ∀ s, P s → P (main s).2) (finishes : ∀ s, P s → (finish s).DataFits)
    (found : (sequence isClosed finish prepare main s).1 = .ok r) : r.DataFits := by
  have last (s : σ) (kept : P s) (found : (sequence isClosed finish none main s).1 = .ok r) :
      r.DataFits := by
    have after := mains s kept
    unfold sequence at found
    dsimp only at found
    split at found
    · rename_i t ran
      rw [ran] at after
      exact Except.ok.inj found ▸ finishes t after
    · rename_i m t ran
      rw [ran] at after
      dsimp only at found
      split at found
      · exact Except.ok.inj found ▸ finishes t after
      · simp at found
  unfold sequence at found
  dsimp only at found
  split at found
  · exact last s start found
  · rename_i f
    have after := prepares f rfl s start
    split at found
    · rename_i t ran
      rw [ran] at after
      split at found
      · exact Except.ok.inj found ▸ finishes t after
      · exact last t after found
    · rename_i m t ran
      rw [ran] at after
      split at found
      · exact Except.ok.inj found ▸ finishes t after
      · simp at found

theorem finish_fits (e : Guest.Surroundings) (loaded : Nat) {s : State}
    (fits : s.world.draft.DataFits) : (finish e loaded s).DataFits := by
  unfold finish
  split
  · exact Answer.Draft.finish_fits fits
  · exact Json.fits_null

/-- The answer of a call fits, whatever its script is. -/
theorem execute_fits (g : Engine) (t : FileTree) (now : Int) (call : Guest.Call)
    {r : Answer.Reply} (found : (g.execute t now call).answer = .ok r) : r.DataFits := by
  unfold execute at found
  dsimp only at found
  split at found
  · simp at found
  · refine sequence_fits (P := fun s => s.world.draft.DataFits)
      Answer.Draft.dataFits_empty (fun f some_f s kept => ?_)
      (fun s kept => runScript_fits _ _ _ kept) (fun s kept => finish_fits _ _ kept) found
    obtain ⟨source, -, rfl⟩ := Option.map_eq_some_iff.mp some_f
    exact runScript_fits _ _ _ kept

end Engine

end ScriptGate
