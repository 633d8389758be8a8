import ScriptGate.Guest.Host
import ScriptGate.Proofs.Decimal.Numeral
import ScriptGate.Proofs.Path

/-!
# Paths into the parameters

A path is its steps with dots between them, and nothing else: a step is the key of a member or the
numeral of a place in a list. `lookup_eq_some_iff` says so of every path and every value, and the
default of a script is what it gets where no value is reached that way, or null.
-/

namespace ScriptGate.Guest.Request

open Lua (Value Heap)

/-- One step down: to a member of an object by its key, or to an item of a list, counted from
one. -/
inductive Step where
  | key (name : String)
  | position (n : Nat)
  deriving DecidableEq

def Step.text : Step → String
  | .key name => name
  | .position n => toString n

/-- The texts that are taken for a step. For a place they are all its numerals, as long as its
number fits a word. -/
inductive Step.Takes : Step → String → Prop where
  | key (name : String) : Takes (.key name) name
  | position {n : Nat} {s : String} (writes : Decimal.WritesNat s.toList n)
      (fits : n < Word.count64) : Takes (.position n) s

/-- The nodes that steps lead to. -/
inductive Reaches : Json → List Step → Json → Prop where
  | here (v : Json) : Reaches v [] v
  | member {members : List (String × Json)} {key : String} {child node : Json} {rest : List Step}
      (found : Json.find? key members = some child) (reaches : Reaches child rest node) :
      Reaches (.obj members) (.key key :: rest) node
  | item {items : List Json} {n : Nat} {child node : Json} {rest : List Step} (first : 1 ≤ n)
      (last : n ≤ items.length) (found : items[n - 1]? = some child)
      (reaches : Reaches child rest node) : Reaches (.arr items) (.position n :: rest) node

variable {root node child : Json} {path step p q : String} {ss : List Step} {texts : List String}

/-! ### Steps of a path -/

theorem steps_of_nonempty (nonempty : path ≠ "") : steps path = Text.split '.' path :=
  if_neg nonempty

theorem steps_append (first : p ≠ "") (second : q ≠ "") :
    steps (p ++ "." ++ q) = steps p ++ steps q := by
  have whole : p ++ "." ++ q ≠ "" := by simp
  rw [steps_of_nonempty whole, steps_of_nonempty first, steps_of_nonempty second]
  exact Text.split_append '.' p q

theorem steps_join (whole : ∀ text ∈ texts, '.' ∉ text.toList) (other : texts ≠ [""]) :
    steps (Text.join "." texts) = texts := by
  by_cases empty : texts = []
  · subst empty
    rfl
  · have pieces : Text.split '.' (Text.join "." texts) = texts := Text.split_join empty whole
    -- An empty path is a single empty piece.
    have nonempty : Text.join "." texts ≠ "" := by
      intro none
      rw [none] at pieces
      exact other pieces.symm
    rw [steps_of_nonempty nonempty, pieces]

/-! ### One step -/

theorem child?_arr_iff {items : List Json} : child? (.arr items) step = some child ↔
    ∃ n, Decimal.WritesNat step.toList n ∧ n < Word.count64 ∧ 1 ≤ n ∧ n ≤ items.length ∧
      items[n - 1]? = some child := by
  unfold child?
  constructor
  · intro found
    dsimp only at found
    split at found
    · rename_i i read
      obtain ⟨writes, fits⟩ := Decimal.unsigned_eq_ok_iff.mp read
      have inside := (List.getElem?_eq_some_iff.mp found).1
      exact ⟨i + 1, writes, fits, by omega, inside, found⟩
    · cases found
  · rintro ⟨n, writes, fits, first, last, found⟩
    obtain ⟨i, rfl⟩ : ∃ i, n = i + 1 := ⟨n - 1, by omega⟩
    dsimp only
    rw [Decimal.unsigned_eq_ok_iff.mpr ⟨writes, fits⟩]
    exact found

theorem child?_eq_some_iff : child? root step = some child ↔
    ∃ s : Step, s.Takes step ∧ Reaches root [s] child := by
  constructor
  · intro found
    cases root with
    | obj members => exact ⟨.key step, .key step, .member found (.here child)⟩
    | arr items =>
      obtain ⟨n, writes, fits, first, last, at_n⟩ := child?_arr_iff.mp found
      exact ⟨.position n, .position writes fits, .item first last at_n (.here child)⟩
    | _ => cases found
  · rintro ⟨s, takes, reaches⟩
    cases reaches with
    | member found reaches =>
      cases takes
      cases reaches
      exact found
    | item first last found reaches =>
      cases reaches
      cases takes with
      | position writes fits => exact child?_arr_iff.mpr ⟨_, writes, fits, first, last, found⟩

/-! ### Whole paths -/

theorem reaches_cons_iff {s : Step} :
    Reaches root (s :: ss) node ↔ ∃ child, Reaches root [s] child ∧ Reaches child ss node := by
  constructor
  · intro reaches
    cases reaches with
    | member found rest => exact ⟨_, .member found (.here _), rest⟩
    | item first last found rest => exact ⟨_, .item first last found (.here _), rest⟩
  · rintro ⟨child, one, rest⟩
    cases one with
    | member found here =>
      cases here
      exact .member found rest
    | item first last found here =>
      cases here
      exact .item first last found rest

theorem foldlM_child?_iff : texts.foldlM child? root = some node ↔
    ∃ ss, List.Forall₂ Step.Takes ss texts ∧ Reaches root ss node := by
  induction texts generalizing root with
  | nil =>
    constructor
    · intro same
      obtain rfl := Option.some.inj same
      exact ⟨[], .nil, .here root⟩
    · rintro ⟨ss, takes, reaches⟩
      cases takes
      cases reaches
      rfl
  | cons text rest ih =>
    rw [List.foldlM_cons]
    constructor
    · intro found
      obtain ⟨child, one, later⟩ := Option.bind_eq_some_iff.mp found
      obtain ⟨s, takes, reaches⟩ := child?_eq_some_iff.mp one
      obtain ⟨ss, all, further⟩ := ih.mp later
      exact ⟨s :: ss, .cons takes all, reaches_cons_iff.mpr ⟨child, reaches, further⟩⟩
    · rintro ⟨ss, takes, reaches⟩
      cases takes with
      | cons one all =>
        obtain ⟨child, first, further⟩ := reaches_cons_iff.mp reaches
        exact Option.bind_eq_some_iff.mpr
          ⟨child, child?_eq_some_iff.mpr ⟨_, one, first⟩, ih.mpr ⟨_, all, further⟩⟩

theorem lookup_eq_some_iff : lookup root path = some node ↔
    ∃ ss, List.Forall₂ Step.Takes ss (steps path) ∧ Reaches root ss node :=
  foldlM_child?_iff

theorem takes_text {s : Step} (fits : ∀ n, s = .position n → n < Word.count64) :
    s.Takes s.text := by
  cases s with
  | key key => exact .key key
  | position n => exact .position (Decimal.writesNat_toString n) (fits n rfl)

theorem lookup_join (reaches : Reaches root ss node)
    (plain : ∀ key, .key key ∈ ss → '.' ∉ key.toList)
    (fits : ∀ n, .position n ∈ ss → n < Word.count64) (other : ss ≠ [.key ""]) :
    lookup root (Text.join "." (ss.map Step.text)) = some node := by
  have digits (n : Nat) : (toString n).toList = Decimal.natDigits n := Nat.toList_repr
  have whole : ∀ text ∈ ss.map Step.text, '.' ∉ text.toList := by
    intro text member
    obtain ⟨s, inside, rfl⟩ := List.mem_map.mp member
    cases s with
    | key key => exact plain key inside
    | position n =>
      rw [Step.text, digits]
      exact fun dot => (Decimal.allDigits_natDigits n).ne (by decide) dot rfl
  have not_empty : ss.map Step.text ≠ [""] := by
    intro single
    obtain ⟨s, rfl, empty⟩ := List.map_eq_singleton_iff.mp single
    cases s with
    | key key => exact other (by rw [show key = "" from empty])
    | position n =>
      have none : Decimal.natDigits n = [] := by rw [← digits, show toString n = "" from empty]; rfl
      exact Nat.toDigits_ne_nil none
  refine lookup_eq_some_iff.mpr ⟨ss, ?_, reaches⟩
  rw [steps_join whole not_empty, List.forall₂_map_right_iff, List.forall₂_same]
  exact fun s member => takes_text fun n same => fits n (same ▸ member)

theorem lookup_append (first : p ≠ "") (second : q ≠ "") :
    lookup root (p ++ "." ++ q) = (lookup root p).bind fun v => lookup v q := by
  rw [lookup, steps_append first second, List.foldlM_append]
  rfl

/-! ### Defaults -/

/-- Where no path is given, it is the empty one. -/
theorem call_paramsGet (e : Surroundings) (w : World) (h : Heap) (path default : Value) :
    Host.call e w h .paramsGet [path, default] = Host.making w h
      (match present? (lookup e.call.params ((keyText? path).getD "")) with
      | some v => Argument.ofJson v h
      | none => .ok (default, h)) := by
  refine congrArg (Host.making w h) ?_
  show parameter e.call.params h path default = _
  unfold parameter
  cases keyText? path <;> rfl

theorem present?_eq_none_iff {v : Option Json} :
    present? v = none ↔ v = none ∨ v = some .null := by
  cases v with
  | none => simp [present?]
  | some w => cases w <;> simp [present?, Json.isNull, Option.filter]

theorem call_paramsGet_of_present (e : Surroundings) (w : World) (h : Heap) {path : Value}
    (found : lookup e.call.params ((keyText? path).getD "") = some node) (present : node ≠ .null)
    (default : Value) :
    Host.call e w h .paramsGet [path, default] = Host.making w h (Argument.ofJson node h) := by
  have there : present? (some node) = some node := by
    cases node with
    | null => exact absurd rfl present
    | _ => rfl
  rw [call_paramsGet, found, there]

/-- A script gets its default, whatever that is, exactly where nothing is reached or null. -/
theorem call_paramsGet_default_iff (e : Surroundings) (w : World) (h : Heap) (path : Value) :
    (∀ default, Host.call e w h .paramsGet [path, default] = ⟨.ok [default], w, h⟩) ↔
      lookup e.call.params ((keyText? path).getD "") = none ∨
        lookup e.call.params ((keyText? path).getD "") = some .null := by
  rw [← present?_eq_none_iff]
  constructor
  · intro falls
    by_contra present
    obtain ⟨v, found⟩ := Option.ne_none_iff_exists'.mp present
    -- What is there is given whatever the default is, so it cannot be each of two of them.
    have same (default : Value) : Host.making w h (Argument.ofJson v h) = ⟨.ok [default], w, h⟩ := by
      rw [← falls default, call_paramsGet, found]
    have results := congrArg Reaction.result ((same .nil).symm.trans (same (.bool true)))
    simp at results
  · intro absent default
    rw [call_paramsGet, absent]
    rfl

/-- A path leads to the nodes that its steps reach, and to no other: one that is joined of keys
without dots and of places leads where these do, but for a single empty key, whose path is that of
the whole. A longer path is walked in two parts, a list has nothing but its places and a scalar
nothing at all. -/
theorem lookup_of_steps (params : Json) :
    (∀ path node, lookup params path = some node ↔
      ∃ ss, List.Forall₂ Step.Takes ss (steps path) ∧ Reaches params ss node) ∧
    (∀ ss node, Reaches params ss node → (∀ name, .key name ∈ ss → '.' ∉ name.toList) →
      (∀ n, .position n ∈ ss → n < Word.count64) → ss ≠ [.key ""] →
      lookup params (Text.join "." (ss.map Step.text)) = some node) ∧
    (∀ p q, p ≠ "" → q ≠ "" →
      lookup params (p ++ "." ++ q) = (lookup params p).bind fun v => lookup v q) ∧
    (∀ step child, child? params step = some child →
      (∃ members, params = .obj members ∧ Json.find? step members = some child) ∨
        ∃ items n, params = .arr items ∧ Decimal.WritesNat step.toList n ∧ 1 ≤ n ∧
          n ≤ items.length ∧ items[n - 1]? = some child) ∧
    ∀ (e : Surroundings) (w : World) (h : Heap) (path : Value), e.call.params = params →
      ((∀ default, Host.call e w h .paramsGet [path, default] = ⟨.ok [default], w, h⟩) ↔
        lookup params ((keyText? path).getD "") = none ∨
          lookup params ((keyText? path).getD "") = some .null) ∧
      ∀ v, lookup params ((keyText? path).getD "") = some v → v ≠ .null → ∀ default,
        Host.call e w h .paramsGet [path, default] = Host.making w h (Argument.ofJson v h) := by
  refine ⟨fun path node => lookup_eq_some_iff, fun ss node => lookup_join,
    fun p q => lookup_append, fun step child found => ?_, ?_⟩
  · cases params with
    | obj members => exact .inl ⟨members, rfl, found⟩
    | arr items =>
      obtain ⟨n, writes, -, first, last, at_n⟩ := child?_arr_iff.mp found
      exact .inr ⟨items, n, rfl, writes, first, last, at_n⟩
    | _ => cases found
  · rintro e w h path rfl
    exact ⟨call_paramsGet_default_iff e w h path, fun v found present =>
      call_paramsGet_of_present e w h found present⟩

/-- An empty key below a list, and a null that leaves a script its default. -/
theorem lookup_of_steps_of_empty_key :
    let params : Json := .obj [("", .null), ("a", .arr [.bool true, .obj [("", .str "b")]])]
    let e : Surroundings :=
      { call := ⟨{ session := "s" }, "m", params, "m.lua"⟩, seed := 0, costs := ⟨4, 31, 10⟩, now := 0
        network := fun _ => .error "", file := fun _ => none }
    Reaches params [.key "a", .position 2, .key ""] (.str "b") ∧
      lookup params "a.2." = some (.str "b") ∧
      lookup params "a.2" = (lookup params "a").bind (fun v => lookup v "2") ∧
      ∀ default, Host.call e {} {} .paramsGet [.text "b", default] = ⟨.ok [default], {}, {}⟩ := by
  intro params e
  have reaches : Reaches params [.key "a", .position 2, .key ""] (.str "b") :=
    .member rfl (.item (by decide) (by decide) rfl (.member rfl (.here _)))
  obtain ⟨-, joined, parts, -, falls⟩ := lookup_of_steps params
  refine ⟨reaches, ?_, parts "a" "2" (by decide) (by decide), ?_⟩
  · exact joined _ _ reaches (by simp) (by simp [Word.count64]) (by simp)
  · exact (falls e {} {} (.text "b") rfl).1.mpr (.inl (by decide +kernel))

end ScriptGate.Guest.Request
