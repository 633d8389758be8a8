import ScriptGate.Engine
import ScriptGate.Method.Script
import ScriptGate.Proofs.Path

/-!
# Method names and the paths of their scripts

`Spells` is the grammar of method names. A name has a script path exactly if it spells some
segments, and the path is then the root with these segments below it, so that it tells them and
never leads to the prepare script.
-/

namespace ScriptGate.Method

/-- Some segments of ASCII letters and digits, joined by single dots. -/
structure Spells (parts : List String) (name : String) : Prop where
  some_part : parts ≠ []
  nonempty : ∀ part ∈ parts, part ≠ ""
  plain : ∀ part ∈ parts, ∀ c ∈ part.toList, c.isAlphanum = true
  joined : name = ".".intercalate parts

theorem isSegment_iff {part : String} :
    isSegment part.toList = true ↔ part ≠ "" ∧ ∀ c ∈ part.toList, c.isAlphanum = true := by
  simp [isSegment, String.toList_eq_nil_iff]

namespace Spells

variable {parts : List String} {name : String}

theorem splits (spells : Spells parts name) :
    Text.splitAt '.' name.toList = parts.map String.toList := by
  have whole : ∀ piece ∈ parts.map String.toList, '.' ∉ piece := by
    intro piece member dot
    obtain ⟨part, inside, rfl⟩ := List.mem_map.mp member
    exact absurd (spells.plain part inside '.' dot) (by decide)
  rw [spells.joined, String.toList_intercalate]
  exact Text.splitAt_intercalate (by simpa using spells.some_part) whole

theorem isName (spells : Spells parts name) {part : String} (member : part ∈ parts) :
    Path.IsName part where
  whole slash := absurd (spells.plain part member '/' slash) (by decide)
  nonempty := spells.nonempty part member
  not_dot equal := absurd (spells.plain part member '.' (by simp [equal])) (by decide)
  not_dots equal := absurd (spells.plain part member '.' (by simp [equal])) (by decide)

end Spells

variable {parts dirs : List String} {root name last path : String}

theorem segments_eq_ok_iff : segments name = .ok parts ↔ Spells parts name := by
  unfold segments
  constructor
  · intro read
    split at read
    · cases read
    dsimp only at read
    split at read
    · rename_i segments_only
      obtain rfl := Except.ok.inj read
      have each : ∀ part ∈ (Text.splitAt '.' name.toList).map String.ofList,
          part ≠ "" ∧ ∀ c ∈ part.toList, c.isAlphanum = true := by
        intro part member
        obtain ⟨piece, inside, rfl⟩ := List.mem_map.mp member
        rw [← isSegment_iff, String.toList_ofList]
        exact List.all_eq_true.mp segments_only piece inside
      exact ⟨by simp [Text.splitAt_ne_nil], fun part member => (each part member).1,
        fun part member => (each part member).2, (Text.join_split '.' name).symm⟩
    · cases read
  · intro spells
    have segments_only : (Text.splitAt '.' name.toList).all isSegment = true := by
      rw [spells.splits, List.all_map, List.all_eq_true]
      exact fun part member => isSegment_iff.mpr ⟨spells.nonempty part member,
        spells.plain part member⟩
    have some_name : name ≠ "" := by
      rintro rfl
      have empty : [[]] = parts.map String.toList := spells.splits
      obtain ⟨part, rfl, blank⟩ : ∃ part, parts = [part] ∧ part.toList = [] := by
        simpa [List.map_eq_cons_iff] using empty.symm
      exact spells.nonempty part (by simp) (String.toList_eq_nil_iff.mp blank)
    rw [if_neg some_name, if_pos segments_only, spells.splits]
    simp

theorem segments_error (none : ¬ ∃ parts, Spells parts name) :
    segments name = .error (if name = "" then .missing else .invalidFormat name) := by
  cases read : segments name with
  | ok parts => exact absurd ⟨parts, segments_eq_ok_iff.mp read⟩ none
  | error fault =>
    unfold segments at read
    dsimp only at read
    split at read
    · simp_all
    split at read
    · cases read
    · simp_all

/-! ### Paths -/

/-- The path of a script: what it says, and what it leads through. -/
structure LeadsTo (root : String) (dirs : List String) (last path : String) : Prop where
  text : path = Path.append root (Text.join "/" (dirs ++ [last ++ ".lua"]))
  components : Path.components path =
    Path.components root ++ (dirs ++ [last ++ ".lua"]).map .ordinary

theorem scriptPath_of_spells (root : String) (spells : Spells (dirs ++ [last]) name) :
    ∃ path, scriptPath root name = .ok path ∧ LeadsTo root dirs last path := by
  have areNames : ∀ dir ∈ dirs, Path.IsName dir := fun dir member =>
    spells.isName (List.mem_append_left _ member)
  have lastName : Path.IsName last := spells.isName (by simp)
  have noDot : '.' ∉ last.toList := fun dot =>
    absurd (spells.plain last (by simp) '.' dot) (by decide)
  have written : Path.withEnding ((dirs ++ [last]).foldl Path.append root) scriptEnding =
      Path.append (dirs.foldl Path.append root) (last ++ ".lua") := by
    rw [List.foldl_append, List.foldl_cons, List.foldl_nil,
      Path.withEnding_append lastName noDot _ (by decide), String.append_assoc]
    rfl
  have components : Path.components (Path.append (dirs.foldl Path.append root) (last ++ ".lua")) =
      Path.components root ++ (dirs ++ [last ++ ".lua"]).map .ordinary := by
    rw [Path.components_append (Path.isName_script lastName.whole),
      Path.components_foldl_append areNames]
    simp
  refine ⟨_, ?_, ?_, components⟩
  · rw [scriptPath, segments_eq_ok_iff.mpr spells]
    simp only [bind, Except.bind, written, Path.below?_of_append components]
    rw [if_pos (by simp [Path.Component.name?])]
    rfl
  · rw [← Path.foldl_append_eq areNames]

/-- A path tells the segments that it leads through. -/
theorem LeadsTo.unique {others : List String} {final other : String}
    (first : LeadsTo root dirs last path) (second : LeadsTo root others final other)
    (same : Path.components path = Path.components other) : dirs = others ∧ last = final := by
  rw [first.components, second.components, List.append_cancel_left_eq] at same
  have names : dirs ++ [last ++ ".lua"] = others ++ [final ++ ".lua"] :=
    (List.map_inj_right fun _ _ => Path.Component.ordinary.inj).mp same
  obtain ⟨dirs_eq, last_eq⟩ := List.append_inj' names rfl
  exact ⟨dirs_eq, by simpa using last_eq⟩

/-- Every name that spells segments has a path, and no other name has one. -/
theorem scriptPath_cases (root name : String) :
    (∃ dirs last path, Spells (dirs ++ [last]) name ∧ scriptPath root name = .ok path ∧
      LeadsTo root dirs last path) ∨
    (¬ ∃ parts, Spells parts name) ∧
      scriptPath root name = .error (if name = "" then .missing else .invalidFormat name) := by
  by_cases spelled : ∃ parts, Spells parts name
  · obtain ⟨parts, spells⟩ := spelled
    obtain ⟨dirs, last, rfl⟩ := List.eq_nil_or_concat parts |>.resolve_left spells.some_part
    rw [List.concat_eq_append] at spells
    obtain ⟨path, found, leads⟩ := scriptPath_of_spells root spells
    exact .inl ⟨dirs, last, path, spells, found, leads⟩
  · refine .inr ⟨spelled, ?_⟩
    rw [scriptPath, segments_error spelled]
    rfl

/-- A method name has a script path below any root exactly if it is one or more segments of ASCII
letters and digits with single dots between them; the empty name is missing, any other is of invalid
format, and none is not found. The path is the root with the segments below it, the last with the
ending of scripts; different names have different paths, and none has that of the prepare script. -/
theorem scriptPath_of_names (root : String) :
    (∀ name, (∃ path, scriptPath root name = .ok path) ↔ ∃ parts, Spells parts name) ∧
    scriptPath root "" = .error .missing ∧
    (∀ name, name ≠ "" → (¬ ∃ parts, Spells parts name) →
      scriptPath root name = .error (.invalidFormat name)) ∧
    (∀ name other, scriptPath root name ≠ .error (.notFound other)) ∧
    (∀ name dirs last path, Spells (dirs ++ [last]) name → scriptPath root name = .ok path →
      path = Path.append root (Text.join "/" (dirs ++ [last ++ ".lua"])) ∧
        Path.components path =
          Path.components root ++ (dirs ++ [last ++ ".lua"]).map .ordinary) ∧
    (∀ name other path path', scriptPath root name = .ok path → scriptPath root other = .ok path' →
      Path.components path = Path.components path' → name = other) ∧
    ∀ name path, scriptPath root name = .ok path →
      Path.components path ≠ Path.components (Path.append root Engine.prepareScript) := by
  have found {name path : String} (read : scriptPath root name = .ok path) :
      ∃ dirs last, Spells (dirs ++ [last]) name ∧ LeadsTo root dirs last path := by
    rcases scriptPath_cases root name with ⟨dirs, last, there, spells, is, leads⟩ | ⟨-, fails⟩
    · obtain rfl := Except.ok.inj (is.symm.trans read)
      exact ⟨dirs, last, spells, leads⟩
    · rw [fails] at read
      cases read
  have empty : ¬ ∃ parts, Spells parts "" := by
    rintro ⟨parts, spells⟩
    have read := segments_eq_ok_iff.mpr spells
    cases read
  refine ⟨fun name => ⟨?_, ?_⟩, ?_, ?_, ?_, ?_, ?_, ?_⟩
  · rintro ⟨path, read⟩
    obtain ⟨dirs, last, spells, -⟩ := found read
    exact ⟨_, spells⟩
  · intro spelled
    rcases scriptPath_cases root name with ⟨_, _, path, _, is, _⟩ | ⟨none, -⟩
    · exact ⟨path, is⟩
    · exact absurd spelled none
  · rcases scriptPath_cases root "" with ⟨_, _, _, spells, _⟩ | ⟨-, fails⟩
    · exact absurd ⟨_, spells⟩ empty
    · exact fails
  · intro name some_name none
    rcases scriptPath_cases root name with ⟨_, _, _, spells, _⟩ | ⟨-, fails⟩
    · exact absurd ⟨_, spells⟩ none
    · rw [fails, if_neg some_name]
  · intro name other
    rcases scriptPath_cases root name with ⟨_, _, _, _, is, _⟩ | ⟨-, fails⟩
    · rw [is]
      exact fun equal => nomatch equal
    · rw [fails]
      split <;> exact fun equal => nomatch equal
  · intro name dirs last path spells read
    obtain ⟨path', is, leads⟩ := scriptPath_of_spells root spells
    obtain rfl := Except.ok.inj (is.symm.trans read)
    exact ⟨leads.text, leads.components⟩
  · intro name other path path' read read' same
    obtain ⟨dirs, last, spells, leads⟩ := found read
    obtain ⟨dirs', last', spells', leads'⟩ := found read'
    obtain ⟨rfl, rfl⟩ := leads.unique leads' same
    rw [spells.joined, spells'.joined]
  · intro name path read same
    obtain ⟨dirs, last, spells, leads⟩ := found read
    have prepare : Path.components (Path.append root Engine.prepareScript) =
        Path.components root ++ [.ordinary "_prepare.lua"] :=
      Path.components_append ⟨by decide, by decide, by decide, by decide⟩
    rw [leads.components, prepare, List.append_cancel_left_eq] at same
    have names : dirs ++ [last ++ ".lua"] = [] ++ ["_prepare" ++ ".lua"] :=
      (List.map_inj_right fun _ _ => Path.Component.ordinary.inj).mp same
    obtain ⟨-, equal⟩ := List.append_inj' names rfl
    obtain rfl := (String.append_left_inj ".lua").mp (List.singleton_inj.mp equal)
    exact absurd (spells.plain "_prepare" (by simp) '_' (by decide)) (by decide)

theorem scriptPath_of_nested_name :
    Spells (["users"] ++ ["create"]) "users.create" ∧
      scriptPath "/srv/./com/" "users.create" = .ok "/srv/./com/users/create.lua" ∧
      Path.components "/srv/./com/users/create.lua" = Path.components "/srv/./com/" ++
        [.ordinary "users", .ordinary "create.lua"] := by
  have segments : ∀ part ∈ ["users"] ++ ["create"], isSegment part.toList = true := by decide
  have spells : Spells (["users"] ++ ["create"]) "users.create" :=
    ⟨by simp, fun part member => (isSegment_iff.mp (segments part member)).1,
      fun part member => (isSegment_iff.mp (segments part member)).2, by decide⟩
  have read : scriptPath "/srv/./com/" "users.create" = .ok "/srv/./com/users/create.lua" := by
    obtain ⟨path, read, leads⟩ := scriptPath_of_spells "/srv/./com/" spells
    rw [read, leads.text]
    exact congrArg Except.ok (by decide +kernel)
  obtain ⟨-, -, -, -, leads, -, -⟩ := scriptPath_of_names "/srv/./com/"
  exact ⟨spells, read, (leads _ _ _ _ spells read).2⟩

end ScriptGate.Method
