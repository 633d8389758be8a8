import ScriptGate.Proofs.Path
import ScriptGate.Storage.Pool

/-!
# The file that a path names

A path names a file if it is not blank, does not begin with a slash, has no piece that leads upwards
and has a name in it. The file is then the one that these names lead to below the data directory, so
that paths name the same file exactly if they have the same names.
-/

namespace ScriptGate.Storage

open ScriptGate.Path (Component)

variable {path other : String} {place there : Place}

/-- The names in a path: what is between its slashes, but for nothing and single dots. -/
def names (path : String) : List String :=
  (Text.split '/' path).filter fun piece => piece ≠ "" ∧ piece ≠ "."

/-- A path does not begin with a slash, and no piece of it leads upwards. -/
structure IsRelative (path : String) : Prop where
  no_slash : path.toList.head? ≠ some '/'
  flat : ".." ∉ Text.split '/' path

/-- A relative path has its names as components, and perhaps a dot in front of them. -/
theorem IsRelative.components (relative : IsRelative path) :
    ∃ lead, (lead = [] ∨ lead = [.current]) ∧
      Path.components path = lead ++ (names path).map .ordinary := by
  obtain ⟨first, rest, pieces⟩ := List.exists_cons_of_ne_nil (Text.split_ne_nil '/' path)
  have flat := relative.flat
  rw [pieces, List.mem_cons, not_or] at flat
  have others := Path.filterMap_ofPiece? flat.2
  rw [Path.components_eq, pieces]
  by_cases empty : first = ""
  · subst empty
    have alone : rest = [] := Decidable.byContradiction fun more =>
      relative.no_slash (Text.split_eq_cons_iff.mp ⟨rest, more, pieces⟩)
    exact ⟨[], .inl rfl, by simp [names, pieces, alone, Path.ofPieces]⟩
  · rw [Path.ofPieces, others]
    · by_cases dot : first = "."
      · exact ⟨[.current], .inr rfl, by simp [names, pieces, dot, Component.ofPiece?]⟩
      · refine ⟨[], .inl rfl, ?_⟩
        simp [names, pieces, empty, dot, Ne.symm flat.1, Component.ofPiece?]
    · exact fun none => empty none

theorem isInside_iff : (∀ c ∈ Path.components path, isInside c = true) ↔ IsRelative path := by
  constructor
  · intro inside
    refine ⟨fun slash => ?_, fun upwards => ?_⟩
    · obtain ⟨rest, more, pieces⟩ := Text.split_eq_cons_iff.mpr slash
      rw [Path.components_eq, pieces, Path.ofPieces, if_neg more] at inside
      exact absurd (inside .root (by simp)) (by decide)
    · obtain ⟨first, rest, pieces⟩ := List.exists_cons_of_ne_nil (Text.split_ne_nil '/' path)
      have parent : Component.parent ∈ Path.components path := by
        rw [pieces, List.mem_cons] at upwards
        rw [Path.components_eq, pieces]
        have later (member : ".." ∈ rest) :
            Component.parent ∈ rest.filterMap (Component.ofPiece? false) :=
          List.mem_filterMap.mpr ⟨"..", member, by simp [Component.ofPiece?]⟩
        by_cases empty : first = ""
        · subst empty
          have member : ".." ∈ rest := by simpa using upwards
          rw [Path.ofPieces, if_neg (List.ne_nil_of_mem member)]
          exact List.mem_cons_of_mem _ (later member)
        · rw [Path.ofPieces]
          · rcases upwards with rfl | member
            · simp [Component.ofPiece?]
            · exact List.mem_append_right _ (later member)
          · exact fun none => empty none
      exact absurd (inside .parent parent) (by decide)
  · intro relative c member
    obtain ⟨lead, dot, shape⟩ := relative.components
    rw [shape, List.mem_append, List.mem_map] at member
    rcases member with first | ⟨name, -, rfl⟩
    · rcases dot with rfl | rfl
      · cases first
      · obtain rfl := List.mem_singleton.mp first
        rfl
    · rfl

theorem IsRelative.filterMap_name? (relative : IsRelative path) :
    (Path.components path).filterMap Component.name? = names path := by
  obtain ⟨lead, dot, shape⟩ := relative.components
  have named : ((names path).map Component.ordinary).filterMap Component.name? = names path := by
    rw [List.filterMap_map]
    exact List.filterMap_some
  rw [shape, List.filterMap_append, named]
  rcases dot with rfl | rfl <;> rfl

/-- The last component of a relative path is a name if there is any. -/
theorem IsRelative.last_name (relative : IsRelative path) :
    ((Path.components path).getLast?.bind Component.name?).isSome = true ↔ names path ≠ [] := by
  obtain ⟨lead, dot, shape⟩ := relative.components
  rw [shape]
  rcases List.eq_nil_or_concat (names path) with none | ⟨front, last, some_name⟩
  · rcases dot with rfl | rfl <;> simp [none, Component.name?]
  · rw [some_name, List.concat_eq_append]
    simp [Component.name?]

theorem isName_of_mem_names (relative : IsRelative path) {name : String}
    (member : name ∈ names path) : Path.IsName name := by
  obtain ⟨piece, counts⟩ := List.mem_filter.mp member
  simp only [ne_eq, decide_eq_true_eq] at counts
  refine ⟨?_, counts.1, counts.2, fun dots => relative.flat (dots ▸ piece)⟩
  obtain ⟨chars, inside, rfl⟩ := List.mem_map.mp piece
  rw [String.toList_ofList]
  exact Text.not_mem_of_mem_splitAt chars inside

theorem place?_eq_some_iff : place? path = some place ↔
    Text.isAllBlank path = false ∧ IsRelative path ∧ names path ≠ [] ∧ place = names path := by
  unfold place?
  dsimp only
  split
  · rename_i refused
    refine ⟨fun absurdity => (by cases absurdity), fun ⟨text, relative, some_name, _⟩ => ?_⟩
    have all : (Path.components path).all isInside = true :=
      List.all_eq_true.mpr (isInside_iff.mpr relative)
    have last := relative.last_name.mpr some_name
    rw [text, all, ← Option.not_isSome, last] at refused
    cases refused
  · rename_i accepted
    simp only [Bool.or_eq_true, Bool.not_eq_true', not_or, Bool.not_eq_true, Bool.not_eq_false]
      at accepted
    obtain ⟨⟨text, all⟩, last⟩ := accepted
    have relative := isInside_iff.mp (List.all_eq_true.mp all)
    have some_name := relative.last_name.mp (by simpa using last)
    rw [relative.filterMap_name?, Option.some.injEq]
    exact ⟨fun same => ⟨text, relative, some_name, same.symm⟩, fun ⟨_, _, _, same⟩ => same.symm⟩

/-- A path names the file that its names lead to. -/
theorem names_of_place? (named : place? path = some place) : place = names path :=
  (place?_eq_some_iff.mp named).2.2.2

/-! ### Below the data directory -/

/-- The path of a file below a data directory. -/
def filePath (dataRoot : String) (place : Place) : String :=
  Path.append dataRoot (Text.join "/" place)

theorem components_filePath (dataRoot : String) (named : place? path = some place) :
    Path.components (filePath dataRoot place) =
      Path.components dataRoot ++ place.map .ordinary := by
  obtain ⟨-, relative, some_name, rfl⟩ := place?_eq_some_iff.mp named
  exact Path.components_append_join (fun _ => isName_of_mem_names relative) some_name

/-- A connection is made to the file of a path, and none for a path that names no file. -/
theorem connect_place (p : Pool) (path : String) :
    (∀ place, place? path = some place → ∃ pool, p.connect path = .ok ({ place }, pool)) ∧
      (place? path = none → p.connect path = .error (.invalidPath path)) := by
  unfold Pool.connect
  constructor
  · intro place named
    rw [named]
    dsimp only
    cases p.lane? place with
    | some lane => exact ⟨_, rfl⟩
    | none => exact ⟨_, rfl⟩
  · intro unnamed
    rw [unnamed]

theorem isAllBlank_eq_false_iff :
    Text.isAllBlank path = false ↔ ∃ c ∈ path.toList, Text.isBlank c = false := by
  simp [Text.isAllBlank]

/-- A path names a file exactly if it has a character that is no blank, does not begin with a slash,
has no piece `..` between its slashes and has a name. Its names, in order, then lead to the file
from the data directory, whichever that is, so that the file is below it and other than itself. Two
such paths name the same file exactly if they have the same names. -/
theorem place?_of_paths (path : String) :
    (∀ place, place? path = some place ↔
      (∃ c ∈ path.toList, Text.isBlank c = false) ∧ path.toList.head? ≠ some '/' ∧
        ".." ∉ Text.split '/' path ∧ names path ≠ [] ∧ place = names path) ∧
    (∀ place, place? path = some place →
      place = (Path.components path).filterMap Component.name? ∧
      (∀ p : Pool, ∃ pool, p.connect path = .ok ({ place }, pool)) ∧
      ∀ dataRoot,
        Path.components (filePath dataRoot place) =
          Path.components dataRoot ++ place.map .ordinary ∧
        Path.IsBelow dataRoot (filePath dataRoot place) ∧
        Path.components (filePath dataRoot place) ≠ Path.components dataRoot) ∧
    (place? path = none → ∀ p : Pool, p.connect path = .error (.invalidPath path)) ∧
    ∀ other place there dataRoot, place? path = some place → place? other = some there →
      (Path.components (filePath dataRoot place) = Path.components (filePath dataRoot there) ↔
        names path = names other) := by
  refine ⟨fun place => ?_, fun place named => ⟨?_, fun p => ?_, fun dataRoot => ?_⟩,
    fun unnamed p => (connect_place p path).2 unnamed,
    fun other place there dataRoot named also => ?_⟩
  · rw [place?_eq_some_iff, isAllBlank_eq_false_iff]
    constructor
    · rintro ⟨text, relative, rest⟩
      exact ⟨text, relative.no_slash, relative.flat, rest⟩
    · rintro ⟨text, no_slash, flat, rest⟩
      exact ⟨text, ⟨no_slash, flat⟩, rest⟩
  · obtain ⟨-, relative, -, rfl⟩ := place?_eq_some_iff.mp named
    exact relative.filterMap_name?.symm
  · exact (connect_place p path).1 place named
  · have shape := components_filePath dataRoot named
    obtain ⟨-, -, some_name, rfl⟩ := place?_eq_some_iff.mp named
    refine ⟨shape, ⟨_, some_name, shape⟩, fun same => some_name ?_⟩
    rw [same] at shape
    simpa using shape
  · rw [components_filePath dataRoot named, components_filePath dataRoot also,
      List.append_cancel_left_eq, ← names_of_place? named, ← names_of_place? also]
    exact List.map_inj_right fun _ _ => Component.ordinary.inj

theorem place?_of_two_spellings :
    place? "./a//b.db/." = some ["a", "b.db"] ∧ place? "a/b.db" = some ["a", "b.db"] ∧
      Path.components (filePath "/srv/data/" ["a", "b.db"]) =
        Path.components "/srv/data/" ++ [.ordinary "a", .ordinary "b.db"] ∧
      names "./a//b.db/." = names "a/b.db" := by
  have first : place? "./a//b.db/." = some ["a", "b.db"] := by decide +kernel
  have second : place? "a/b.db" = some ["a", "b.db"] := by decide +kernel
  obtain ⟨-, leads, -, same⟩ := place?_of_paths "./a//b.db/."
  obtain ⟨-, -, below⟩ := leads _ first
  exact ⟨first, second, (below "/srv/data/").1,
    (same "a/b.db" _ _ "/srv/data/" first second).mp rfl⟩

end ScriptGate.Storage
