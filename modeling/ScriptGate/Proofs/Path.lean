import ScriptGate.Path

/-!
# Paths with names behind them

A name that is put behind a path stands behind all of its components, however the path ends, and an
ending goes to that name alone.
-/

namespace ScriptGate.Text

/-! ### Pieces of two inputs -/

theorem splitAt_append {α : Type} [DecidableEq α] (sep : α) (xs ys : List α) :
    splitAt sep (xs ++ sep :: ys) = splitAt sep xs ++ splitAt sep ys := by
  induction xs with
  | nil => simp [splitAt]
  | cons c r ih =>
    rw [List.cons_append, splitAt, splitAt]
    split
    · rw [ih, List.cons_append]
    · rw [ih]
      cases pieces : splitAt sep r with
      | nil => exact absurd pieces (splitAt_ne_nil sep r)
      | cons piece rest => rfl

/-- Pieces without the separator in them are what they are joined to. -/
theorem splitAt_intercalate {α : Type} [DecidableEq α] {sep : α} {pieces : List (List α)}
    (some_piece : pieces ≠ []) (whole : ∀ piece ∈ pieces, sep ∉ piece) :
    splitAt sep (List.intercalate [sep] pieces) = pieces := by
  induction pieces with
  | nil => exact absurd rfl some_piece
  | cons piece rest ih =>
    have first : sep ∉ piece := whole piece List.mem_cons_self
    cases rest with
    | nil => rw [List.intercalate_singleton, splitAt_of_not_mem first]
    | cons next others =>
      have later := ih (by simp) fun p member => whole p (List.mem_cons_of_mem _ member)
      rw [List.intercalate_cons_cons, List.append_assoc, List.singleton_append,
        splitAt_append_cons first, later]

/-- The pieces have no elements but those of the input. -/
theorem mem_of_mem_splitAt {α : Type} [DecidableEq α] {sep c : α} {xs : List α} :
    ∀ piece ∈ splitAt sep xs, c ∈ piece → c ∈ xs := by
  induction xs with
  | nil => simp [splitAt]
  | cons d r ih =>
    intro piece member inside
    rw [splitAt] at member
    split at member
    · rcases List.mem_cons.mp member with rfl | later
      · cases inside
      · exact List.mem_cons_of_mem _ (ih piece later inside)
    · split at member
      · rename_i none
        exact absurd none (splitAt_ne_nil sep r)
      · rename_i first rest pieces
        rw [pieces] at ih
        rcases List.mem_cons.mp member with rfl | later
        · rcases List.mem_cons.mp inside with rfl | further
          · exact List.mem_cons_self
          · exact List.mem_cons_of_mem _ (ih first (by simp) further)
        · exact List.mem_cons_of_mem _ (ih piece (by simp [later]) inside)

/-- What is put in front of an input without the separator in it goes to the first piece. -/
theorem splitAt_append_first {α : Type} [DecidableEq α] {sep : α} {xs : List α} (whole : sep ∉ xs)
    (ys : List α) : ∃ first rest, splitAt sep ys = first :: rest ∧
      splitAt sep (xs ++ ys) = (xs ++ first) :: rest := by
  induction xs with
  | nil =>
    obtain ⟨first, rest, pieces⟩ := List.exists_cons_of_ne_nil (splitAt_ne_nil sep ys)
    exact ⟨first, rest, pieces, pieces⟩
  | cons c r ih =>
    rw [List.mem_cons, not_or] at whole
    obtain ⟨first, rest, before, after⟩ := ih whole.2
    refine ⟨first, rest, before, ?_⟩
    rw [List.cons_append, splitAt, if_neg (Ne.symm whole.1), after]
    rfl

/-- What is put behind an input without the separator in it goes to the last piece. -/
theorem splitAt_append_last {α : Type} [DecidableEq α] {sep : α} (xs : List α) {ys : List α}
    (whole : sep ∉ ys) : ∃ front last, splitAt sep xs = front ++ [last] ∧
      splitAt sep (xs ++ ys) = front ++ [last ++ ys] := by
  induction xs with
  | nil => exact ⟨[], [], rfl, splitAt_of_not_mem whole⟩
  | cons c r ih =>
    obtain ⟨front, last, before, after⟩ := ih
    by_cases same : c = sep
    · refine ⟨[] :: front, last, ?_, ?_⟩
      · rw [splitAt, if_pos same, before, List.cons_append]
      · rw [List.cons_append, splitAt, if_pos same, after, List.cons_append]
    · cases front with
      | nil =>
        refine ⟨[], c :: last, ?_, ?_⟩
        · rw [splitAt, if_neg same, before]
          rfl
        · rw [List.cons_append, splitAt, if_neg same, after]
          rfl
      | cons piece rest =>
        refine ⟨(c :: piece) :: rest, last, ?_, ?_⟩
        · rw [splitAt, if_neg same, before]
          rfl
        · rw [List.cons_append, splitAt, if_neg same, after]
          rfl

variable {sep : Char} {s t : String}

theorem split_append_first (whole : sep ∉ s.toList) (t : String) : ∃ first rest,
    split sep t = first :: rest ∧ split sep (s ++ t) = (s ++ first) :: rest := by
  obtain ⟨first, rest, before, after⟩ := splitAt_append_first whole t.toList
  refine ⟨String.ofList first, rest.map String.ofList, ?_, ?_⟩
  · simp [split, before]
  · simp [split, after]

theorem split_append_last (whole : sep ∉ t.toList) : ∃ front last,
    split sep s = front ++ [last] ∧ split sep (s ++ t) = front ++ [last ++ t] := by
  obtain ⟨front, last, before, after⟩ := splitAt_append_last s.toList whole
  refine ⟨front.map String.ofList, String.ofList last, ?_, ?_⟩
  · simp [split, before]
  · simp [split, after]

theorem split_ne_nil (sep : Char) (s : String) : split sep s ≠ [] := by
  simp [split, splitAt_ne_nil]

theorem split_append (sep : Char) (s t : String) :
    split sep (s ++ String.singleton sep ++ t) = split sep s ++ split sep t := by
  simp [split, splitAt_append]

theorem split_of_not_mem (whole : sep ∉ s.toList) : split sep s = [s] := by
  simp [split, splitAt_of_not_mem whole]

theorem join_split (sep : Char) (s : String) : join (String.singleton sep) (split sep s) = s := by
  rw [join, split, ← String.toList_inj, String.toList_intercalate, List.map_map]
  simpa [Function.comp_def] using intercalate_splitAt sep s.toList

/-- Pieces without the separator in them are what the text splits into that they are joined to. -/
theorem split_join {pieces : List String} (some_piece : pieces ≠ [])
    (whole : ∀ piece ∈ pieces, sep ∉ piece.toList) :
    split sep (join (String.singleton sep) pieces) = pieces := by
  have chars : ∀ piece ∈ pieces.map String.toList, sep ∉ piece := by
    intro piece member
    obtain ⟨text, inside, rfl⟩ := List.mem_map.mp member
    exact whole text inside
  rw [split, join, String.toList_intercalate, String.toList_singleton,
    splitAt_intercalate (by simpa using some_piece) chars, List.map_map]
  simp [Function.comp_def]

theorem split_eq_cons_iff {sep : Char} {s : String} :
    (∃ rest, rest ≠ [] ∧ split sep s = "" :: rest) ↔ s.toList.head? = some sep := by
  cases chars : s.toList with
  | nil => simp [split, chars, splitAt]
  | cons c r =>
    by_cases same : c = sep
    · simp [split, chars, splitAt, same, splitAt_ne_nil]
    · obtain ⟨piece, rest, pieces⟩ := List.exists_cons_of_ne_nil (splitAt_ne_nil sep r)
      have first : String.ofList (c :: piece) ≠ "" := by simp
      simp [split, chars, splitAt, same, pieces]

end ScriptGate.Text

namespace ScriptGate.Path

/-- A piece of a path text that is a name: no slash is in it, and it is no dots. -/
structure IsName (piece : String) : Prop where
  whole : '/' ∉ piece.toList
  nonempty : piece ≠ ""
  not_dot : piece ≠ "."
  not_dots : piece ≠ ".."

theorem IsName.ofPiece? {piece : String} (name : IsName piece) (first : Bool) :
    Component.ofPiece? first piece = some (.ordinary piece) := by
  simp [Component.ofPiece?, name.nonempty, name.not_dot, name.not_dots]

/-- The name of a script, with the ending of scripts. -/
theorem isName_script {front : String} (whole : '/' ∉ front.toList) : IsName (front ++ ".lua") where
  whole := by simp [whole]
  nonempty := by simp
  not_dot equal := by
    have length := congrArg String.length equal
    rw [String.length_append] at length
    exact absurd length (show front.length + 4 ≠ 1 by omega)
  not_dots equal := by
    have length := congrArg String.length equal
    rw [String.length_append] at length
    exact absurd length (show front.length + 4 ≠ 2 by omega)

/-- The components of the pieces between slashes. -/
def ofPieces : List String → List Component
  | "" :: rest => if rest = [] then [] else .root :: rest.filterMap (Component.ofPiece? false)
  | first :: rest =>
    (Component.ofPiece? true first).toList ++ rest.filterMap (Component.ofPiece? false)
  | [] => []

theorem components_eq (path : String) : components path = ofPieces (Text.split '/' path) := rfl

theorem ofPieces_append {pieces others : List String} (some_piece : pieces ≠ [])
    (more : others ≠ []) :
    ofPieces (pieces ++ others) =
      ofPieces (pieces ++ [""]) ++ others.filterMap (Component.ofPiece? false) := by
  cases pieces with
  | nil => exact absurd rfl some_piece
  | cons first rest =>
    by_cases empty : first = ""
    · subst empty
      simp [ofPieces, more, Component.ofPiece?]
    · simp [ofPieces, empty, Component.ofPiece?]

theorem ofPieces_empty_last {pieces : List String} (some_piece : pieces ≠ [])
    (more : pieces ≠ [""]) : ofPieces (pieces ++ [""]) = ofPieces pieces := by
  cases pieces with
  | nil => exact absurd rfl some_piece
  | cons first rest =>
    by_cases empty : first = ""
    · subst empty
      have others : rest ≠ [] := fun none => more (by rw [none])
      simp [ofPieces, others, Component.ofPiece?]
    · simp [ofPieces, empty, Component.ofPiece?]

/-! ### One name more -/

/-- The pieces of a path with a name behind it: those that the path gives, and the name. -/
theorem exists_lead (path : String) : ∃ lead : List String,
    (∀ name, '/' ∉ name.toList → Text.split '/' (append path name) = lead ++ [name]) ∧
      ∀ name, IsName name → ofPieces (lead ++ [name]) = components path ++ [.ordinary name] := by
  have separate (s name : String) (whole : '/' ∉ name.toList) :
      Text.split '/' (s ++ "/" ++ name) = Text.split '/' s ++ [name] := by
    rw [show s ++ "/" ++ name = s ++ String.singleton '/' ++ name from rfl, Text.split_append,
      Text.split_of_not_mem whole]
  have behind {lead : List String} (there : lead ≠ []) {name : String} (isName : IsName name) :
      ofPieces (lead ++ [name]) = ofPieces (lead ++ [""]) ++ [.ordinary name] := by
    rw [ofPieces_append there (by simp)]
    simp [isName.ofPiece?]
  by_cases empty : path = ""
  · subst empty
    refine ⟨[], fun name whole => ?_, fun name isName => ?_⟩
    · simpa [append] using Text.split_of_not_mem whole
    · rw [List.nil_append, ofPieces, isName.ofPiece? true]
      · rfl
      · exact fun none => isName.nonempty none
  by_cases ends : path.endsWith "/" = true
  · obtain ⟨front, rfl⟩ : ∃ front, path = String.ofList front ++ "/" := by
      rw [String.endsWith_eq_endsWith_toSlice, String.Slice.endsWith_string_iff] at ends
      obtain ⟨front, shape⟩ := ends
      refine ⟨front, ?_⟩
      rw [← String.toList_inj, String.toList_append, String.toList_ofList, shape,
        String.copy_toSlice]
    have pieces : Text.split '/' (String.ofList front ++ "/") =
        Text.split '/' (String.ofList front) ++ [""] := by
      simpa using separate (String.ofList front) "" (by simp)
    refine ⟨Text.split '/' (String.ofList front), fun name whole => ?_, fun name isName => ?_⟩
    · rw [append, if_pos (by simp [ends]), separate _ _ whole]
    · rw [behind (Text.split_ne_nil _ _) isName, components_eq, pieces]
  · refine ⟨Text.split '/' path, fun name whole => ?_, fun name isName => ?_⟩
    · rw [append, if_neg (by simp [empty, ends]), separate _ _ whole]
    · have more : Text.split '/' path ≠ [""] := fun one => by
        have joined := Text.join_split '/' path
        rw [one] at joined
        exact empty joined.symm
      rw [behind (Text.split_ne_nil _ _) isName,
        ofPieces_empty_last (Text.split_ne_nil _ _) more, components_eq]

variable {path name : String} {names : List String}

theorem components_append (isName : IsName name) :
    components (append path name) = components path ++ [.ordinary name] := by
  obtain ⟨lead, split, parts⟩ := exists_lead path
  rw [components_eq, split name isName.whole, parts name isName]

theorem components_foldl_append (areNames : ∀ name ∈ names, IsName name) :
    components (names.foldl append path) = components path ++ names.map .ordinary := by
  induction names generalizing path with
  | nil => simp
  | cons name rest ih =>
    rw [List.foldl_cons, ih fun other member => areNames other (List.mem_cons_of_mem _ member),
      components_append (areNames name List.mem_cons_self)]
    simp

theorem append_eq (path tail : String) :
    ∃ front, append path tail = front ++ tail ∧ ∀ other, append path other = front ++ other := by
  by_cases bare : (path = "" || path.endsWith "/") = true
  · exact ⟨path, by rw [append, if_pos bare], fun other => by rw [append, if_pos bare]⟩
  · exact ⟨path ++ "/", by rw [append, if_neg bare], fun other => by rw [append, if_neg bare]⟩

theorem append_of_isName (isName : IsName name) (front tail : String) :
    append (front ++ name) tail = front ++ (name ++ "/" ++ tail) := by
  have noEnd : (front ++ name).endsWith "/" = false := by
    rw [String.endsWith_eq_endsWith_toSlice, String.Slice.endsWith_string_eq_false_iff,
      String.copy_toSlice, String.toList_append]
    rintro ⟨before, shape⟩
    have some_char : name.toList ≠ [] := by simpa using isName.nonempty
    have last := congrArg List.getLast? shape
    rw [List.getLast?_append, List.getLast?_append,
      List.getLast?_eq_some_getLast some_char] at last
    have slash : '/' = name.toList.getLast some_char := by simpa using last
    exact isName.whole (slash ▸ List.getLast_mem some_char)
  rw [append, if_neg (by simp [noEnd, isName.nonempty])]
  simp [String.append_assoc]

/-- Names that are put behind a path one by one, and all at once. -/
theorem foldl_append_eq (areNames : ∀ name ∈ names, IsName name) (last : String) :
    append (names.foldl append path) last = append path (Text.join "/" (names ++ [last])) := by
  induction names generalizing path with
  | nil => simp [Text.join]
  | cons name rest ih =>
    obtain ⟨front, shape, same⟩ := append_eq path name
    have joined : Text.join "/" (name :: rest ++ [last]) =
        name ++ "/" ++ Text.join "/" (rest ++ [last]) :=
      String.intercalate_cons_of_ne_nil (by simp)
    rw [List.foldl_cons, ih fun other member => areNames other (List.mem_cons_of_mem _ member),
      joined, shape, append_of_isName (areNames name List.mem_cons_self), same]

/-- Names that are put behind a path all at once. -/
theorem components_append_join {path : String} {names : List String}
    (areNames : ∀ name ∈ names, IsName name) (some_name : names ≠ []) :
    components (append path (Text.join "/" names)) = components path ++ names.map .ordinary := by
  obtain ⟨front, last, rfl⟩ := List.eq_nil_or_concat names |>.resolve_left some_name
  rw [List.concat_eq_append] at areNames ⊢
  have before : ∀ name ∈ front, IsName name := fun name member =>
    areNames name (List.mem_append_left _ member)
  rw [← foldl_append_eq before, components_append (areNames last (by simp)),
    components_foldl_append before]
  simp

/-! ### Endings -/

theorem stem_of_no_dot (plain : '.' ∉ name.toList) : stem name = name := by
  rw [stem, Text.split_of_not_mem plain]
  rfl

theorem withEnding_append (isName : IsName name) (plain : '.' ∉ name.toList) (ending : String)
    (whole : '/' ∉ ending.toList) :
    withEnding (append path name) ending = append path (name ++ "." ++ ending) := by
  obtain ⟨lead, split, -⟩ := exists_lead path
  have longer : '/' ∉ (name ++ "." ++ ending).toList := by
    simp [isName.whole, whole]
  have joined := Text.join_split '/' (append path (name ++ "." ++ ending))
  rw [split _ longer] at joined
  rw [withEnding, split name isName.whole]
  simp only [List.reverse_append, List.reverse_singleton, List.singleton_append]
  rw [List.dropWhile_cons_of_neg (by simp [isName.nonempty, isName.not_dot])]
  simp only [isName.not_dots, if_false, List.reverse_reverse, stem_of_no_dot plain]
  exact joined

/-! ### What is below -/

theorem below?_of_append {base path : String} {rest : List Component}
    (shape : components path = components base ++ rest) : below? base path = some rest := by
  rw [below?, shape, if_pos (by simp)]
  simp

/-- A path leads below another: behind all of its components stand names, and at least one. -/
def IsBelow (base path : String) : Prop :=
  ∃ names : List String, names ≠ [] ∧ components path = components base ++ names.map .ordinary

/-- Pieces that do not lead upwards are names, or nothing where they are empty or a dot. -/
theorem filterMap_ofPiece? {pieces : List String} (flat : ".." ∉ pieces) :
    pieces.filterMap (Component.ofPiece? false) =
      (pieces.filter fun piece => piece ≠ "" ∧ piece ≠ ".").map .ordinary := by
  induction pieces with
  | nil => rfl
  | cons piece rest ih =>
    rw [List.mem_cons, not_or] at flat
    have others := ih flat.2
    by_cases empty : piece = ""
    · simp [Component.ofPiece?, empty, others]
    by_cases dot : piece = "."
    · simp [Component.ofPiece?, dot, others]
    · simp [Component.ofPiece?, empty, dot, Ne.symm flat.1, others]

/-- Behind a path and a slash, a script leads below where no dots are in front of its ending. -/
theorem isBelow_script {base tail : String} (some_base : base ≠ "") (plain : '.' ∉ tail.toList) :
    IsBelow base (base ++ "/" ++ (tail ++ ".lua")) := by
  obtain ⟨front, piece, before, after⟩ :=
    Text.split_append_last (s := tail) (show '/' ∉ ".lua".toList by simp)
  have pieces : ∀ part ∈ front ++ [piece], '.' ∉ part.toList ∧ '/' ∉ part.toList := by
    intro part member
    rw [← before, Text.split, List.mem_map] at member
    obtain ⟨part, member, rfl⟩ := member
    rw [String.toList_ofList]
    exact ⟨fun dot => plain (Text.mem_of_mem_splitAt part member dot),
      Text.not_mem_of_mem_splitAt part member⟩
  have more : Text.split '/' base ≠ [""] := fun one => by
    have joined := Text.join_split '/' base
    rw [one] at joined
    exact some_base joined.symm
  have isName := isName_script (pieces piece (by simp)).2
  have flat : ".." ∉ front := fun dots => (pieces ".." (by simp [dots])).1 (by simp)
  refine ⟨(front.filter fun part => part ≠ "" ∧ part ≠ ".") ++ [piece ++ ".lua"], by simp, ?_⟩
  calc components (base ++ "/" ++ (tail ++ ".lua"))
      = ofPieces (Text.split '/' base ++ (front ++ [piece ++ ".lua"])) := by
        rw [components_eq, show base ++ "/" = base ++ String.singleton '/' from rfl,
          Text.split_append, after]
    _ = components base ++ (front ++ [piece ++ ".lua"]).filterMap (Component.ofPiece? false) := by
        rw [ofPieces_append (Text.split_ne_nil _ _) (by simp),
          ofPieces_empty_last (Text.split_ne_nil _ _) more, components_eq]
    _ = components base ++ ((front.filter fun part => part ≠ "" ∧ part ≠ ".") ++
          [piece ++ ".lua"]).map .ordinary := by
        rw [List.filterMap_append, List.map_append, filterMap_ofPiece? flat]
        simp [isName.ofPiece?]

end ScriptGate.Path
