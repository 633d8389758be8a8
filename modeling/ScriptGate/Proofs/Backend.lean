import ScriptGate.Backend
import ScriptGate.Proofs.Method.Script

/-!
# What the back-end of the scripts checks

A call passes some checks, one after the other, before the engine is entered with it, and the first
one that fails decides the answer. `scriptsOver` is the back-end over any engine, so that an engine
may also die by a panic.
-/

namespace ScriptGate

/-- The first of some checks that fails decides by what stands beside it; none does where all of
them hold. -/
inductive FirstFailure {ε : Type} : List (Prop × ε) → Option ε → Prop where
  | none : FirstFailure [] none
  | here {check : Prop} {error : ε} {rest : List (Prop × ε)} : ¬ check →
      FirstFailure ((check, error) :: rest) (some error)
  | later {check : Prop} {error : ε} {rest : List (Prop × ε)} {verdict : Option ε} : check →
      FirstFailure rest verdict → FirstFailure ((check, error) :: rest) verdict

theorem FirstFailure.unique {ε : Type} {checks : List (Prop × ε)} {one other : Option ε}
    (first : FirstFailure checks one) (second : FirstFailure checks other) : one = other := by
  induction first with
  | none => cases second; rfl
  | here fails =>
    cases second with
    | here => rfl
    | later holds => exact absurd holds fails
  | later holds _ ih =>
    cases second with
    | here fails => exact absurd holds fails
    | later _ rest => exact ih rest

/-! ### Scripts in a tree -/

namespace Method

/-- A regular file stands at a place below a base, and every name before the last is a directory of
its own: no link is on the way. -/
structure Stands (t : FileTree) (base place : Place) : Prop where
  file : ∃ content, t.entry? (base ++ place) = some (.file content)
  directories : ∀ before after, place = before ++ after → before ≠ [] → after ≠ [] →
    t.entry? (base ++ before) = some .directory

theorem stands_singleton {t : FileTree} {base : Place} {name : String} :
    Stands t base [name] ↔ ∃ content, t.entry? (base ++ [name]) = some (.file content) := by
  refine ⟨Stands.file, fun file => ⟨file, fun before after parts some_before some_after => ?_⟩⟩
  have lengths := congrArg List.length parts
  have before_length := List.length_pos_iff.mpr some_before
  have after_length := List.length_pos_iff.mpr some_after
  rw [List.length_append, List.length_singleton] at lengths
  omega

theorem stands_cons {t : FileTree} {base rest : Place} {name next : String} :
    Stands t base (name :: next :: rest) ↔
      t.entry? (base ++ [name]) = some .directory ∧ Stands t (base ++ [name]) (next :: rest) := by
  have regroup (place : Place) : base ++ name :: place = (base ++ [name]) ++ place := by simp
  constructor
  · rintro ⟨file, directories⟩
    refine ⟨directories [name] (next :: rest) rfl (by simp) (by simp), ?_, ?_⟩
    · rwa [regroup] at file
    · intro before after parts _ some_after
      rw [← regroup]
      have whole : name :: next :: rest = (name :: before) ++ after := by
        rw [parts, List.cons_append]
      exact directories (name :: before) after whole (by simp) some_after
  · rintro ⟨here, file, directories⟩
    refine ⟨by rwa [regroup], fun before after parts some_before some_after => ?_⟩
    obtain ⟨first, before, rfl⟩ := List.exists_cons_of_ne_nil some_before
    obtain ⟨rfl, tail⟩ := List.cons.inj parts
    by_cases more : before = []
    · rw [more]
      exact here
    · rw [regroup]
      exact directories before after tail more some_after

theorem isReal_iff {t : FileTree} {base place : Place} (some_name : place ≠ []) :
    isReal t base place = true ↔ Stands t base place := by
  induction place generalizing base with
  | nil => exact absurd rfl some_name
  | cons name rest ih =>
    cases rest with
    | nil =>
      rw [isReal, stands_singleton]
      cases t.entry? (base ++ [name]) with
      | none => simp
      | some entry => cases entry <;> simp
    | cons next rest =>
      rw [isReal, stands_cons]
      cases t.entry? (base ++ [name]) with
      | none => simp
      | some entry => cases entry <;> simp [ih]

/-- The script of a method with some segments is below a root. -/
def HasScript (t : FileTree) (root : String) (parts : List String) : Prop :=
  ∃ base, t.locate (Path.components root) = some base ∧ Stands t base (scriptPlace parts)

theorem Spells.unique {parts others : List String} {name : String} (spells : Spells parts name)
    (also : Spells others name) : parts = others :=
  Except.ok.inj ((segments_eq_ok_iff.mpr spells).symm.trans (segments_eq_ok_iff.mpr also))

theorem Spells.name_ne_empty {parts : List String} {name : String} (spells : Spells parts name) :
    name ≠ "" := by
  rintro rfl
  have read := segments_eq_ok_iff.mpr spells
  cases read

theorem scriptPlace_ne_nil {parts : List String} (some_part : parts ≠ []) :
    scriptPlace parts ≠ [] := by
  cases parts with
  | nil => exact absurd rfl some_part
  | cons part rest => cases rest <;> simp [scriptPlace]

theorem resolve_of_spells (t : FileTree) (root : String) {name : String} {parts : List String}
    (spells : Spells parts name) :
    (HasScript t root parts ∧ resolve t (Path.components root) name = .ok (scriptPlace parts)) ∨
      (¬ HasScript t root parts ∧
        resolve t (Path.components root) name = .error (.notFound name)) := by
  have real (base : Place) :
      isReal t base (scriptPlace parts) = true ↔ Stands t base (scriptPlace parts) :=
    isReal_iff (scriptPlace_ne_nil spells.some_part)
  have found : place name = .ok (scriptPlace parts) := by
    rw [place, segments_eq_ok_iff.mpr spells]
    rfl
  simp only [resolve, found, bind, Except.bind, HasScript]
  cases t.locate (Path.components root) with
  | none => exact .inr ⟨by simp, rfl⟩
  | some base =>
    by_cases there : isReal t base (scriptPlace parts) = true
    · exact .inl ⟨⟨base, rfl, (real base).mp there⟩, if_pos there⟩
    · refine .inr ⟨?_, if_neg there⟩
      rintro ⟨other, same, stands⟩
      obtain rfl := Option.some.inj same
      exact there ((real base).mpr stands)

end Method

/-! ### Calls of scripts -/

namespace Backend

/-- The parameters are absent, an array or an object. -/
def TakesParams (params : Option Json) : Prop :=
  params = none ∨ (∃ items, params = some (.arr items)) ∨ ∃ members, params = some (.obj members)

/-- The checks of a call for a script in order, each with the error for a call that fails it. -/
def scriptChecks (root : String) (t : FileTree) (r : Rpc.Request) : List (Prop × Rpc.Error) := [
  (r.method ≠ "", .methodMissing),
  (∃ parts, Method.Spells parts r.method, .invalidMethodFormat),
  (∃ parts, Method.Spells parts r.method ∧ Method.HasScript t root parts, .methodNotFound),
  (TakesParams r.params, .invalidParams)]

/-- The call with which a script is entered for a request whose method has these segments. -/
def callOf (caller : Caller) (r : Rpc.Request) (parts : List String) : Guest.Call where
  caller
  method := r.method
  params := r.params.getD .null
  script := Text.join "/" (Method.scriptPlace parts)

theorem params_cases (given : Option Json) :
    (TakesParams given ∧ params given = .ok (given.getD .null)) ∨
      (¬ TakesParams given ∧ params given = .error .invalidParams) := by
  cases given with
  | none => exact .inl ⟨.inl rfl, rfl⟩
  | some v =>
    cases v with
    | arr items => exact .inl ⟨.inr (.inl ⟨items, rfl⟩), rfl⟩
    | obj members => exact .inl ⟨.inr (.inr ⟨members, rfl⟩), rfl⟩
    | null | bool | num | str => exact .inr ⟨by simp [TakesParams], rfl⟩

/-- A request is turned away by the first check that it fails, or a script is called for it. -/
theorem scriptCall_cases (root : String) (t : FileTree) (caller : Caller) (r : Rpc.Request) :
    (∃ e, FirstFailure (scriptChecks root t r) (some e) ∧
        scriptCall root t caller r = .error e) ∨
      ∃ parts, FirstFailure (scriptChecks root t r) none ∧ Method.Spells parts r.method ∧
        scriptCall root t caller r = .ok (callOf caller r parts) := by
  by_cases spelled : ∃ parts, Method.Spells parts r.method
  · obtain ⟨parts, spells⟩ := spelled
    rcases Method.resolve_of_spells t root spells with ⟨there, found⟩ | ⟨missing, found⟩
    · rcases params_cases r.params with ⟨taken, read⟩ | ⟨other, read⟩
      · refine .inr ⟨parts, ?_, spells, ?_⟩
        · exact .later spells.name_ne_empty (.later ⟨parts, spells⟩
            (.later ⟨parts, spells, there⟩ (.later taken .none)))
        · rw [scriptCall, found]
          simp only [read]
          rfl
      · refine .inl ⟨.invalidParams, ?_, ?_⟩
        · exact .later spells.name_ne_empty (.later ⟨parts, spells⟩
            (.later ⟨parts, spells, there⟩ (.here other)))
        · rw [scriptCall, found]
          simp only [read]
          rfl
    · refine .inl ⟨.methodNotFound, ?_, ?_⟩
      · have nowhere : ¬ ∃ parts, Method.Spells parts r.method ∧
            Method.HasScript t root parts := by
          rintro ⟨others, also, there⟩
          exact missing (spells.unique also ▸ there)
        exact .later spells.name_ne_empty (.later ⟨parts, spells⟩ (.here nowhere))
      · rw [scriptCall, found]
        rfl
  · have fails : Method.resolve t (Path.components root) r.method =
        .error (if r.method = "" then .missing else .invalidFormat r.method) := by
      rw [Method.resolve, Method.place, Method.segments_error spelled]
      rfl
    refine .inl ?_
    by_cases empty : r.method = ""
    · refine ⟨.methodMissing, .here fun other => other empty, ?_⟩
      rw [scriptCall, fails, if_pos empty]
      rfl
    · refine ⟨.invalidMethodFormat, .later empty (.here spelled), ?_⟩
      rw [scriptCall, fails, if_neg empty]
      rfl

/-! ### Any engine -/

/-- An engine for scripts: where they are, and what entering it with a call comes to, which is an
answer, a fault, or nothing where it dies by a panic. -/
structure Interpreter (σ : Type) where
  root : σ → String
  tree : FileTree
  run : Guest.Call → σ → Option (Except Engine.Fault Answer.Reply) × σ

variable {σ : Type}

def scriptsOver (i : Interpreter σ) : Backend σ := fun caller r s =>
  match scriptCall (i.root s) i.tree caller r with
  | .error error => (.answered (respond r (.error error)), s)
  | .ok call =>
    match i.run call s with
    | (some answer, last) => (.answered (respond r (.ok answer)), last)
    | (none, last) => (.crashed, last)

def Interpreter.ofTree (t : FileTree) (now : Int) : Interpreter Engine where
  root g := g.root
  tree := t
  run call g := (some (g.execute t now call).answer, (g.execute t now call).engine)

theorem scripts_eq_over (t : FileTree) (now : Int) :
    scripts t now = scriptsOver (.ofTree t now) := by
  funext caller r g
  cases called : scriptCall g.root t caller r <;>
    simp [scripts, scriptsOver, Interpreter.ofTree, called]

end Backend

end ScriptGate
