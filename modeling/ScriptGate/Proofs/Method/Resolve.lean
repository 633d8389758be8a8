import ScriptGate.Proofs.Backend

/-!
# Where a method leads in a tree

A name finds its script where everything on the way below the root is real: directories, and a
regular file at the end. The path of the script then leads to that file, and below the root it
passes no link. A name that is no method name is refused without a look at the tree.
-/

namespace ScriptGate

namespace FileTree

variable {t : FileTree} {links : Nat} {place middle last : Place}
  {xs ys : List Path.Component}

/-- Whatever stands in a tree stands in a directory. -/
def Grounded (t : FileTree) : Prop := ∀ e ∈ t.entries, t.entry? e.1.dropLast = some .directory

instance (t : FileTree) : Decidable t.Grounded :=
  inferInstanceAs (Decidable (∀ e ∈ t.entries, _))

theorem Grounded.parent {name : String} (grounded : t.Grounded)
    (there : (t.entry? (place ++ [name])).isSome) : t.entry? place = some .directory := by
  obtain ⟨entry, found⟩ := Option.isSome_iff_exists.mp there
  unfold entry? at found
  rw [if_neg (by simp), List.lookup_eq_some_iff] at found
  obtain ⟨before, after, entries, -⟩ := found
  have parent := grounded (place ++ [name], entry) (by simp [entries])
  simpa using parent

/-! ### Walks that pass no link -/

/-- A walk that follows no link goes the same way where links may be followed. -/
theorem walk_of_walk_zero (walked : t.walk 0 place ys = some last) :
    t.walk links place ys = some last := by
  have any (follow : Place → List Path.Component → Option Place) :
      t.walkWith follow place ys = some last := by
    change t.walkWith (fun _ _ => none) place ys = some last at walked
    induction ys generalizing place with
    | nil => exact walked
    | cons c rest ih =>
      rw [walkWith.eq_def] at walked ⊢
      dsimp only at walked ⊢
      split at walked
      · cases c with
        | root | current | parent => exact ih walked
        | ordinary name =>
          dsimp only at walked ⊢
          split at walked
          · cases walked
          · cases walked
          · exact ih walked
      · cases walked
  cases links <;> exact any _

theorem walkWith_append {follow : Place → List Path.Component → Option Place}
    (followed : ∀ place xs, follow place xs = some middle → follow place (xs ++ ys) = some last)
    (arrived : t.walkWith follow middle ys = some last)
    (walked : t.walkWith follow place xs = some middle) :
    t.walkWith follow place (xs ++ ys) = some last := by
  induction xs generalizing place with
  | nil =>
    obtain rfl := Option.some.inj walked
    exact arrived
  | cons c rest ih =>
    rw [List.cons_append, walkWith.eq_def]
    rw [walkWith.eq_def] at walked
    dsimp only at walked ⊢
    split at walked
    · cases c with
      | root | current | parent => exact ih walked
      | ordinary name =>
        dsimp only at walked ⊢
        split at walked
        · cases walked
        · rename_i target _
          have whole := followed _ _ walked
          rwa [List.append_assoc] at whole
        · exact ih walked
    · cases walked

/-- Where a walk ends, another one that follows no link goes on. -/
theorem walk_append (walked : t.walk links place xs = some middle)
    (onwards : t.walk 0 middle ys = some last) : t.walk links place (xs ++ ys) = some last := by
  induction links generalizing place xs with
  | zero => exact walkWith_append (by simp) onwards walked
  | succ links ih =>
    have further : t.walk (links + 1) middle ys = some last := walk_of_walk_zero onwards
    exact walkWith_append (fun _ _ before => ih before) further walked

end FileTree

namespace Method

variable {t : FileTree} {root name path : String} {parts : List String} {base place : Place}

/-- Where a script stands in a tree, the walk to it passes directories only. -/
theorem Stands.walk (grounded : t.Grounded) (stands : Stands t base place) (some_name : place ≠ []) :
    t.walk 0 base (place.map .ordinary) = some (base ++ place) := by
  induction place generalizing base with
  | nil => exact absurd rfl some_name
  | cons name rest ih =>
    cases rest with
    | nil =>
      obtain ⟨content, there⟩ := stands_singleton.mp stands
      have parent := grounded.parent (by simp [there] : (t.entry? (base ++ [name])).isSome)
      simp [FileTree.walk, FileTree.walkWith, parent, there]
    | cons next rest =>
      obtain ⟨there, further⟩ := stands_cons.mp stands
      have parent := grounded.parent (by simp [there] : (t.entry? (base ++ [name])).isSome)
      have onwards := ih further (by simp)
      rw [List.append_assoc, List.singleton_append] at onwards
      rw [← onwards, List.map_cons, FileTree.walk, FileTree.walkWith, parent]
      dsimp only
      rw [there]

theorem scriptPlace_append (dirs : List String) (last : String) :
    scriptPlace (dirs ++ [last]) = dirs ++ [last ++ ".lua"] := by
  induction dirs with
  | nil => rfl
  | cons dir dirs ih =>
    obtain ⟨next, rest, more⟩ : ∃ next rest, dirs ++ [last] = next :: rest :=
      List.exists_cons_of_ne_nil (by simp)
    rw [List.cons_append, more, scriptPlace, ← more, ih, List.cons_append]

/-- The path of a script, and the place that it leads to below the root. -/
theorem scriptPath_eq (root : String) (spells : Spells parts name) :
    ∃ path, scriptPath root name = .ok path ∧
      path = Path.append root (Text.join "/" (scriptPlace parts)) ∧
      Path.components path = Path.components root ++ (scriptPlace parts).map .ordinary := by
  obtain ⟨dirs, last, rfl⟩ := List.eq_nil_or_concat parts |>.resolve_left spells.some_part
  rw [List.concat_eq_append] at spells ⊢
  obtain ⟨path, found, leads⟩ := scriptPath_of_spells root spells
  rw [scriptPlace_append]
  exact ⟨path, found, leads.text, leads.components⟩

theorem resolve_eq_ok_iff : resolve t (Path.components root) name = .ok place ↔
    ∃ parts, Spells parts name ∧ place = scriptPlace parts ∧ HasScript t root parts := by
  constructor
  · intro found
    by_cases spelled : ∃ parts, Spells parts name
    · obtain ⟨parts, spells⟩ := spelled
      rcases resolve_of_spells t root spells with ⟨there, leads⟩ | ⟨-, fails⟩
      · rw [leads] at found
        exact ⟨parts, spells, (Except.ok.inj found).symm, there⟩
      · rw [fails] at found
        cases found
    · rw [resolve, Method.place, segments_error spelled] at found
      cases found
  · rintro ⟨parts, spells, rfl, there⟩
    rcases resolve_of_spells t root spells with ⟨-, leads⟩ | ⟨missing, -⟩
    · exact leads
    · exact absurd there missing

/-- A method leads to a script exactly if its name is a method name and, below where the root leads,
every step on the way is a directory of its own and the last a regular file. The path of the script
then leads to that file and passes no link below the root. In any other tree the method is not
found, and what is no method name is refused in the same way in all trees. -/
theorem resolve_of_trees (root name : String) :
    (∀ t place, resolve t (Path.components root) name = .ok place ↔
      ∃ parts, Spells parts name ∧ place = scriptPlace parts ∧
        ∃ base, t.locate (Path.components root) = some base ∧ Stands t base place) ∧
    (∀ t place, resolve t (Path.components root) name = .ok place →
      ∃ path, scriptPath root name = .ok path ∧
        path = Path.append root (Text.join "/" place) ∧
        Path.components path = Path.components root ++ place.map .ordinary ∧
        (t.Grounded → ∃ base content, t.locate (Path.components root) = some base ∧
          t.entry? (base ++ place) = some (.file content) ∧
          t.walk 0 base (place.map .ordinary) = some (base ++ place) ∧
          t.locate (Path.components path) = some (base ++ place) ∧
          t.read? (Path.components path) = some content)) ∧
    ((∃ parts, Spells parts name) → ∀ t,
      (¬ ∃ place, resolve t (Path.components root) name = .ok place) →
        resolve t (Path.components root) name = .error (.notFound name)) ∧
    ((¬ ∃ parts, Spells parts name) → ∀ t,
      resolve t (Path.components root) name =
        .error (if name = "" then .missing else .invalidFormat name)) := by
  refine ⟨fun t place => ?_, fun t place found => ?_, ?_, fun none t => ?_⟩
  · rw [resolve_eq_ok_iff]
    constructor
    · rintro ⟨parts, spells, rfl, there⟩
      exact ⟨parts, spells, rfl, there⟩
    · rintro ⟨parts, spells, rfl, there⟩
      exact ⟨parts, spells, rfl, there⟩
  · obtain ⟨parts, spells, rfl, base, located, stands⟩ := resolve_eq_ok_iff.mp found
    obtain ⟨path, is, text, components⟩ := scriptPath_eq root spells
    refine ⟨path, is, text, components, fun grounded => ?_⟩
    obtain ⟨content, there⟩ := stands.file
    have below := stands.walk grounded (scriptPlace_ne_nil spells.some_part)
    have whole : t.locate (Path.components path) = some (base ++ scriptPlace parts) := by
      rw [components]
      exact FileTree.walk_append located below
    exact ⟨base, content, located, there, below, whole, by simp [FileTree.read?, whole, there]⟩
  · rintro ⟨parts, spells⟩ t nowhere
    rcases resolve_of_spells t root spells with ⟨-, leads⟩ | ⟨-, fails⟩
    · exact absurd ⟨_, leads⟩ nowhere
    · exact fails
  · rw [resolve, Method.place, segments_error none]
    rfl

/-- A tree whose scripts are reached by a link, and with a link among them. -/
def linkedTree : FileTree :=
  ⟨[(["srv"], .link "/com"), (["com"], .directory), (["com", "users"], .directory),
    (["com", "users", "create.lua"], .file [0x2D]), (["com", "admin"], .link "/com/users")]⟩

theorem resolve_of_linked_tree :
    linkedTree.Grounded ∧
      resolve linkedTree (Path.components "/srv") "users.create" = .ok ["users", "create.lua"] ∧
      linkedTree.read? (Path.components "/srv/users/create.lua") = some [0x2D] ∧
      resolve linkedTree (Path.components "/srv") "admin.create" =
        .error (.notFound "admin.create") := by
  have grounded : linkedTree.Grounded := by decide
  have found : resolve linkedTree (Path.components "/srv") "users.create" =
      .ok ["users", "create.lua"] := rfl
  obtain ⟨-, leads, -, -⟩ := resolve_of_trees "/srv" "users.create"
  obtain ⟨path, -, rfl, -, reads⟩ := leads _ _ found
  obtain ⟨base, content, located, there, -, -, read⟩ := reads grounded
  have root : linkedTree.locate (Path.components "/srv") = some ["com"] := by decide +kernel
  obtain rfl := Option.some.inj (root.symm.trans located)
  have is : linkedTree.entry? (["com"] ++ ["users", "create.lua"]) = some (.file [0x2D]) := by
    decide
  obtain rfl := Entry.file.inj (Option.some.inj (is.symm.trans there))
  have text : Path.append "/srv" (Text.join "/" ["users", "create.lua"]) =
      "/srv/users/create.lua" := by decide +kernel
  rw [text] at read
  have missing : resolve linkedTree (Path.components "/srv") "admin.create" =
      .error (.notFound "admin.create") := rfl
  exact ⟨grounded, found, read, missing⟩

end Method

end ScriptGate
