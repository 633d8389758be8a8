import Mathlib.Data.List.Forall2
import Mathlib.Data.List.TakeWhile
import ScriptGate.Caller
import ScriptGate.Proofs.Path
import ScriptGate.Proofs.Text.Visible

/-!
# Header lines

What the lines of a call say of a header: one value where it is asked for by name, the same value
in the list of all headers, and the hops of the way that the call has come. `Collects` says which
values the lines of a name show, and each of the three is told by it. Values are joined by a comma
and a blank, so the hops of all lines are those of the value that they are joined to.
-/

namespace ScriptGate

namespace Text

variable {s t : String} {sep : Char}

/-! ### Blanks -/

theorem trim_append (blank : isAllBlank s = true) (t : String) : trim (s ++ t) = trim t := by
  have all : ∀ c ∈ s.toList, isBlank c = true := List.all_eq_true.mp blank
  rw [trim, trim, trimWhile, trimWhile, String.toList_append, List.dropWhile_append_of_pos all]

theorem trim_eq_empty_iff : trim s = "" ↔ isAllBlank s = true := by
  rw [trim, trimWhile, String.ofList_eq_empty_iff, List.reverse_eq_nil_iff,
    List.dropWhile_eq_nil_iff, isAllBlank, List.all_eq_true]
  constructor
  · intro behind c member
    -- What is in front of the first other character is blank, and so is all from there on.
    rw [← List.takeWhile_append_dropWhile (p := isBlank) (l := s.toList)] at member
    rcases List.mem_append.mp member with front | rest
    · exact List.mem_takeWhile_imp front
    · exact behind c (List.mem_reverse.mpr rest)
  · intro blank c member
    exact blank c ((List.dropWhile_sublist _).subset (List.mem_reverse.mp member))

/-- Texts that are joined by a separator with blanks behind it have the pieces that they have one by
one, but for the blanks at their ends. -/
theorem trim_split_join {gap : String} (blank : isAllBlank gap = true)
    (whole : sep ∉ gap.toList) {texts : List String} (some_text : texts ≠ []) :
    (split sep (join (String.singleton sep ++ gap) texts)).map trim =
      (texts.flatMap (split sep)).map trim := by
  induction texts with
  | nil => exact absurd rfl some_text
  | cons text rest ih =>
    cases rest with
    | nil => simp [join]
    | cons next others =>
      let later := join (String.singleton sep ++ gap) (next :: others)
      have joined : join (String.singleton sep ++ gap) (text :: next :: others) =
          text ++ String.singleton sep ++ (gap ++ later) := by
        rw [join, String.intercalate_cons_cons, String.append_assoc, String.append_assoc,
          String.append_assoc]
        rfl
      obtain ⟨first, pieces, alone, behind⟩ := split_append_first whole later
      have trimmed : (split sep (gap ++ later)).map trim = (split sep later).map trim := by
        rw [alone, behind, List.map_cons, List.map_cons, trim_append blank]
      rw [joined, split_append, List.map_append, trimmed, ih (by simp), ← List.map_append]
      rfl

/-! ### Letter case -/

theorem isUpper_iff {c : Char} : c.isUpper = true ↔ 65 ≤ c.toNat ∧ c.toNat ≤ 90 :=
  decide_eq_true_iff

theorem toNat_toLower (c : Char) :
    c.toLower.toNat = if c.isUpper then c.toNat + 32 else c.toNat := by
  by_cases upper : c.isUpper = true
  · have range := isUpper_iff.mp upper
    have small : c.toNat + 32 < 2 ^ 32 := by omega
    have lowered : c.toLower.val = c.val + 32 := congrArg Char.val (dif_pos range)
    rw [if_pos upper]
    calc c.toLower.toNat = (c.val + 32).toNat := congrArg UInt32.toNat lowered
      _ = (c.toNat + 32) % 2 ^ 32 := UInt32.toNat_add _ _
      _ = c.toNat + 32 := Nat.mod_eq_of_lt small
  · have kept : c.toLower = c := dif_neg (mt isUpper_iff.mpr upper)
    rw [if_neg upper, kept]

theorem isUpper_toLower (c : Char) : c.toLower.isUpper = false := by
  rw [← Bool.not_eq_true, isUpper_iff, toNat_toLower]
  by_cases upper : c.isUpper = true
  · rw [if_pos upper]
    have range := isUpper_iff.mp upper
    omega
  · rwa [if_neg upper, ← isUpper_iff]

end Text

/-- A line shows its value where that is a text of visible characters. -/
def HeaderLine.Shows (line : HeaderLine) (value : String) : Prop :=
  line.value = Bytes.ofString value ∧ ∀ c ∈ value.toList, IsVisible c

namespace Caller

/-- Two characters that differ at most in their case, which only ASCII letters have. -/
def SameLetter (a b : Char) : Prop :=
  a = b ∨ (a.isUpper = true ∧ b.toNat = a.toNat + 32) ∨
    (b.isUpper = true ∧ a.toNat = b.toNat + 32)

instance (a b : Char) : Decidable (SameLetter a b) := inferInstanceAs (Decidable (_ ∨ _))

/-- Two spellings of one name. -/
def SameName (a b : String) : Prop := List.Forall₂ SameLetter a.toList b.toList

instance (a b : String) : Decidable (SameName a b) :=
  inferInstanceAs (Decidable (List.Forall₂ SameLetter a.toList b.toList))

def IsLower (name : String) : Prop := ∀ c ∈ name.toList, c.isUpper = false

instance (name : String) : Decidable (IsLower name) :=
  List.decidableBAll (fun c : Char => c.isUpper = false) name.toList

/-- The values that the lines of a name show, in their order. Lines of other names and values that
are not visible are passed over. -/
inductive Collects (name : String) : List HeaderLine → List String → Prop where
  | done : Collects name [] []
  | shown {line : HeaderLine} {lines : List HeaderLine} {value : String} {values : List String}
      (same : SameName line.name name) (shows : line.Shows value)
      (later : Collects name lines values) : Collects name (line :: lines) (value :: values)
  | hidden {line : HeaderLine} {lines : List HeaderLine} {values : List String}
      (hidden : ∀ value, ¬line.Shows value) (later : Collects name lines values) :
      Collects name (line :: lines) values
  | other {line : HeaderLine} {lines : List HeaderLine} {values : List String}
      (other : ¬SameName line.name name) (later : Collects name lines values) :
      Collects name (line :: lines) values

/-- The address that hops lead to: the first of them that is not blank, without the blanks at its
ends, else the host of the peer, else nothing. -/
inductive LeadsTo (peer : Option Net.SocketAddress) : List String → String → Prop where
  | hop {hop : String} {rest : List String} (shown : Text.isAllBlank hop = false) :
      LeadsTo peer (hop :: rest) (Text.trim hop)
  | blank {hop ip : String} {rest : List String} (blank : Text.isAllBlank hop = true)
      (later : LeadsTo peer rest ip) : LeadsTo peer (hop :: rest) ip
  | peer {a : Net.SocketAddress} (known : peer = some a) : LeadsTo peer [] a.host.text
  | unknown (unknown : peer = none) : LeadsTo peer [] ""

variable {c : Caller} {name other value ip : String} {lines : List HeaderLine}
  {values hops : List String}

/-! ### Names -/

theorem toLower_eq_toLower_iff {a b : Char} : a.toLower = b.toLower ↔ SameLetter a b := by
  simp only [SameLetter, ← Char.toNat_inj, Text.toNat_toLower, Text.isUpper_iff]
  split <;> split <;> omega

theorem lower_eq_lower_iff : lower name = lower other ↔ SameName name other := by
  simp only [lower, ← String.toList_inj, String.toList_map, SameName, ← List.forall₂_eq_eq_eq,
    List.forall₂_map_left_iff, List.forall₂_map_right_iff, toLower_eq_toLower_iff]

theorem isLower_lower (name : String) : IsLower (lower name) := by
  intro c member
  rw [lower, String.toList_map] at member
  obtain ⟨letter, -, rfl⟩ := List.mem_map.mp member
  exact Text.isUpper_toLower letter

theorem lower_eq_self_iff : lower name = name ↔ IsLower name := by
  constructor
  · intro same
    exact same ▸ isLower_lower name
  · intro low
    have kept : ∀ c ∈ name.toList, c.toLower = c := by
      intro c member
      rw [← Char.toNat_inj, Text.toNat_toLower, low c member]
      rfl
    rw [← String.toList_inj, lower, String.toList_map]
    exact (List.map_congr_left kept).trans (List.map_id _)

theorem sameName_lower (name : String) : SameName (lower name) name :=
  lower_eq_lower_iff.mp (lower_eq_self_iff.mpr (isLower_lower name))

/-! ### Values -/

theorem shows_iff {line : HeaderLine} : line.Shows value ↔ Utf8.visible? line.value = some value :=
  Utf8.visible?_eq_some_iff.symm

theorem collects_values (c : Caller) (name : String) :
    Collects name c.headers (c.values name) := by
  unfold values
  induction c.headers with
  | nil => exact .done
  | cons line lines ih =>
    rw [List.filter_cons]
    split
    · rename_i same
      have same := lower_eq_lower_iff.mp (of_decide_eq_true same)
      rw [List.filterMap_cons]
      split
      · rename_i hidden
        exact .hidden (fun value shows => by simp [shows_iff.mp shows] at hidden) ih
      · rename_i value shown
        exact .shown same (shows_iff.mpr shown) ih
    · rename_i other
      exact .other (fun same => other (decide_eq_true (lower_eq_lower_iff.mpr same))) ih

theorem Collects.values_eq (collects : Collects name c.headers values) :
    c.values name = values := by
  unfold Caller.values
  generalize c.headers = lines at collects
  induction collects with
  | done => rfl
  | shown same shows later ih =>
    rw [List.filter_cons_of_pos (by simpa using lower_eq_lower_iff.mpr same)]
    simp only [List.filterMap_cons, shows_iff.mp shows, ih]
  | @hidden line _ _ hidden later ih =>
    have nothing : Utf8.visible? line.value = none :=
      Option.eq_none_iff_forall_ne_some.mpr fun value shown => hidden value (shows_iff.mpr shown)
    rw [List.filter_cons]
    split
    · simp only [List.filterMap_cons, nothing, ih]
    · exact ih
  | other other later ih =>
    rw [List.filter_cons_of_neg (by simpa using mt lower_eq_lower_iff.mp other), ih]

theorem collects_iff : Collects name c.headers values ↔ c.values name = values :=
  ⟨Collects.values_eq, fun same => same ▸ collects_values c name⟩

theorem values_eq_nil_iff : c.values name = [] ↔
    ∀ line ∈ c.headers, SameName line.name name → ∀ value, ¬line.Shows value := by
  simp only [values, List.filterMap_eq_nil_iff, List.mem_filter, decide_eq_true_eq, and_imp,
    lower_eq_lower_iff, shows_iff, Option.eq_none_iff_forall_ne_some, ne_eq]

theorem header_of_values (some_value : c.values name ≠ []) :
    c.header name = some (Text.join ", " (c.values name)) := by
  unfold header
  split
  · rename_i no_value
    exact absurd no_value some_value
  · rfl

theorem header_eq_none_iff : c.header name = none ↔
    ∀ line ∈ c.headers, SameName line.name name → ∀ value, ¬line.Shows value := by
  rw [← values_eq_nil_iff]
  constructor
  · intro absent
    by_contra some_value
    rw [header_of_values some_value] at absent
    cases absent
  · intro no_value
    rw [header, no_value]

theorem header_eq_some_iff : c.header name = some value ↔ ∃ values, values ≠ [] ∧
    Collects name c.headers values ∧ value = ", ".intercalate values := by
  simp only [collects_iff]
  constructor
  · intro found
    have some_value : c.values name ≠ [] := by
      intro no_value
      rw [header_eq_none_iff.mpr (values_eq_nil_iff.mp no_value)] at found
      cases found
    rw [header_of_values some_value] at found
    exact ⟨_, some_value, rfl, (Option.some.inj found).symm⟩
  · rintro ⟨values, some_value, rfl, rfl⟩
    exact header_of_values some_value

theorem header_congr (same : SameName name other) : c.header name = c.header other := by
  rw [header, header, values, values, lower_eq_lower_iff.mpr same]

/-! ### The list of all headers -/

theorem nodup_eraseDups : ∀ names : List String, names.eraseDups.Nodup
  | [] => by simp
  | name :: names => by
    rw [List.eraseDups_cons, List.nodup_cons]
    exact ⟨by simp [List.mem_eraseDups], nodup_eraseDups _⟩
termination_by names => names.length
decreasing_by exact Nat.lt_succ_of_le (List.length_filter_le _ _)

theorem mem_headerNames : name ∈ c.headerNames ↔ ∃ line ∈ c.headers, lower line.name = name := by
  rw [headerNames, List.mem_eraseDups, List.mem_map]

theorem mem_headerPairs : (name, value) ∈ c.headerPairs ↔
    IsLower name ∧ c.header name = some value := by
  rw [headerPairs, List.mem_mergeSort, List.mem_filterMap]
  constructor
  · rintro ⟨listed, member, found⟩
    obtain ⟨line, -, rfl⟩ := mem_headerNames.mp member
    obtain ⟨_, shown, same⟩ := Option.map_eq_some_iff.mp found
    obtain ⟨rfl, rfl⟩ := Prod.mk.inj same
    exact ⟨isLower_lower line.name, shown⟩
  · rintro ⟨low, found⟩
    refine ⟨name, mem_headerNames.mpr ?_, by rw [found]; rfl⟩
    obtain ⟨line, member, same⟩ : ∃ line ∈ c.headers, SameName line.name name := by
      by_contra no_line
      have absent : c.header name = none := header_eq_none_iff.mpr fun line member same _ _ =>
        no_line ⟨line, member, same⟩
      rw [absent] at found
      cases found
    exact ⟨line, member, (lower_eq_lower_iff.mpr same).trans (lower_eq_self_iff.mpr low)⟩

theorem pairwise_headerPairs (c : Caller) : c.headerPairs.Pairwise fun a b => a.1 < b.1 := by
  have sorted : c.headerPairs.Pairwise fun a b => a.1 ≤ b.1 := by
    refine (List.pairwise_mergeSort ?_ ?_ _).imp of_decide_eq_true
    · intro a b d below above
      exact decide_eq_true (String.le_trans (of_decide_eq_true below) (of_decide_eq_true above))
    · intro a b
      simpa using String.le_total a.1 b.1
  have apart : c.headerPairs.Pairwise fun a b => a.1 ≠ b.1 := by
    refine ((List.mergeSort_perm _ _).pairwise_iff fun different => Ne.symm different).mpr ?_
    refine List.Pairwise.filterMap _ (fun name other different a listed b listed' => ?_)
      (nodup_eraseDups _)
    obtain ⟨_, -, rfl⟩ := Option.map_eq_some_iff.mp listed
    obtain ⟨_, -, rfl⟩ := Option.map_eq_some_iff.mp listed'
    exact different
  exact sorted.imp₂ (fun _ _ => Std.lt_of_le_of_ne) apart

/-! ### The way of a call -/

/-- The first hop of a header is that of its lines, one after the other. -/
theorem header_bind_firstHop (c : Caller) (name : String) : (c.header name).bind firstHop =
    (((c.values name).flatMap (Text.split ',')).map Text.trim).find? (· ≠ "") := by
  by_cases no_value : c.values name = []
  · rw [header, no_value]
    rfl
  · have blank : Text.isAllBlank " " = true := by decide
    rw [header_of_values no_value]
    exact congrArg (List.find? (· ≠ "")) (Text.trim_split_join blank (by decide) no_value)

theorem leadsTo_iff {peer : Option Net.SocketAddress} : LeadsTo peer hops ip ↔
    ((hops.map Text.trim).find? (· ≠ "")).getD ((peer.map (·.host.text)).getD "") = ip := by
  induction hops with
  | nil =>
    constructor
    · intro leads
      cases leads with
      | peer known => rw [known]; rfl
      | unknown unknown => rw [unknown]; rfl
    · rintro rfl
      cases peer with
      | none => exact .unknown rfl
      | some a => exact .peer rfl
  | cons hop rest ih =>
    rw [List.map_cons]
    by_cases blank : Text.isAllBlank hop = true
    · rw [List.find?_cons_of_neg (by simpa using Text.trim_eq_empty_iff.mpr blank), ← ih]
      constructor
      · intro leads
        cases leads with
        | hop shown => rw [blank] at shown; cases shown
        | blank _ later => exact later
      · exact .blank blank
    · rw [List.find?_cons_of_pos (by simpa using mt Text.trim_eq_empty_iff.mp blank)]
      constructor
      · intro leads
        cases leads with
        | hop shown => rfl
        | blank blank' => exact absurd blank' blank
      · rintro rfl
        exact .hop (by simpa using blank)

theorem initiator_eq_iff : c.initiator = ip ↔ ∃ values,
    Collects "x-forwarded-for" c.headers values ∧
      LeadsTo c.peer (values.flatMap (Text.split ',')) ip := by
  have first : c.initiator = ((c.header "x-forwarded-for").bind firstHop).getD
      ((c.peer.map (·.host.text)).getD "") := by
    unfold initiator
    cases (c.header "x-forwarded-for").bind firstHop <;> rfl
  rw [first, header_bind_firstHop, ← leadsTo_iff]
  simp only [collects_iff, exists_eq_left']

end Caller

end ScriptGate
