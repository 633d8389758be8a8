import ScriptGate.Proofs.Json.Steps
import ScriptGate.Proofs.Json.RoundTrip

/-!
# Values in a larger text

What is read of a text is read in the same way where the text goes on, where more containers may
nest and where there is more fuel.
-/

namespace ScriptGate.Json

variable {rest : Bytes} {fuel depth more deeper : Nat} {s r : Bytes} {v : Json}

/-! ### Tokens -/

theorem skipBlank_append {b : UInt8} {t : Bytes} (start : skipBlank s = b :: t) (rest : Bytes) :
    skipBlank (s ++ rest) = b :: (t ++ rest) := by
  induction s with
  | nil => simp [skipBlank] at start
  | cons c s ih =>
    rw [skipBlank] at start
    rw [List.cons_append, skipBlank]
    split
    · rename_i blank
      rw [if_pos blank] at start
      exact ih start
    · rename_i solid
      rw [if_neg solid] at start
      obtain ⟨rfl, rfl⟩ := List.cons.inj start
      rfl

theorem expect_append {ws : Bytes} (read : expect ws s = .ok r) (rest : Bytes) :
    expect ws (s ++ rest) = .ok (r ++ rest) := by
  induction ws generalizing s with
  | nil =>
    obtain rfl := Except.ok.inj read
    rfl
  | cons w ws ih =>
    cases s with
    | nil => simp [expect, fail] at read
    | cons b s =>
      rw [expect] at read
      rw [List.cons_append, expect]
      split at read
      · rename_i same
        rw [if_pos same]
        exact ih read
      · simp [fail] at read

/-- A byte that no escape begins with. -/
theorem ne_escape {c : UInt8} {t : Bytes} (noEnd : c = 0x5C → t = [] → False)
    (noEscape : ∀ e r, c = 0x5C → t = e :: r → False) : c ≠ 0x5C := by
  rintro rfl
  cases t with
  | nil => exact noEnd rfl rfl
  | cons e t => exact noEscape e t rfl rfl

theorem stringBytes_append {acc b : Bytes} (read : stringBytes acc s = .ok (b, r)) (rest : Bytes) :
    stringBytes acc (s ++ rest) = .ok (b, r ++ rest) := by
  fun_induction stringBytes acc s
  case case7 quad low high _ _ _ _ _ _ pair second _ ih =>
    simpa [stringBytes, quad, low, high, pair, second] using ih read
  case case19 c t noQuote noEnd _ _ noEscape printable ih =>
    rw [List.cons_append, stringBytes_plain noQuote (ne_escape noEnd noEscape) printable]
    exact ih read
  all_goals simp_all [stringBytes, fail]

theorem string_append {x : String} (read : string s = .ok (x, r)) (rest : Bytes) :
    string (s ++ rest) = .ok (x, r ++ rest) := by
  unfold string at read
  split at read
  · simp at read
  · rename_i b t found
    rw [string, stringBytes_append found rest]
    split at read
    · rename_i text
      obtain ⟨rfl, rfl⟩ := Prod.mk.inj (Except.ok.inj read)
      simp only [text]
    · simp [fail] at read

theorem Next.append {close b : UInt8} {first : Bool} {t : Bytes} (next : Next close first s b t)
    (rest : Bytes) : Next close first (s ++ rest) b (t ++ rest) := by
  cases next with
  | first start other => exact .first (skipBlank_append start rest) other
  | later comma start other =>
    exact .later (skipBlank_append comma rest) (skipBlank_append start rest) other

/-! ### Values -/

/-- What the four readers do with some fuel and depth, they do with no less in front of more. -/
structure ReadersStand (fuel : Nat) : Prop where
  value : ∀ {more depth deeper s v r rest}, fuel ≤ more → depth ≤ deeper → Stops rest →
    value fuel depth s = .ok (v, r) → value more deeper (s ++ rest) = .ok (v, r ++ rest)
  items : ∀ {more depth deeper first acc s v r rest}, fuel ≤ more → depth ≤ deeper → Stops rest →
    items fuel depth first acc s = .ok (v, r) →
    items more deeper first acc (s ++ rest) = .ok (v, r ++ rest)
  members : ∀ {more depth deeper first acc s v r rest}, fuel ≤ more → depth ≤ deeper → Stops rest →
    members fuel depth first acc s = .ok (v, r) →
    members more deeper first acc (s ++ rest) = .ok (v, r ++ rest)
  member : ∀ {more depth deeper acc s v r rest}, fuel ≤ more → depth ≤ deeper → Stops rest →
    member fuel depth acc s = .ok (v, r) → member more deeper acc (s ++ rest) = .ok (v, r ++ rest)

section Step

variable (stand : ReadersStand fuel) (enough : fuel ≤ more) (within : depth ≤ deeper)
  (stops : Stops rest)
include stand enough within stops

theorem value_stands (read : value (fuel + 1) depth s = .ok (v, r)) :
    value (more + 1) deeper (s ++ rest) = .ok (v, r ++ rest) := by
  obtain ⟨b, t, start, step⟩ := value_succ_iff.mp read
  refine value_succ_iff.mpr ⟨b, t ++ rest, skipBlank_append start rest, ?_⟩
  cases step with
  | null first word => exact .null first (expect_append word rest)
  | true first word => exact .true first (expect_append word rest)
  | false first word => exact .false first (expect_append word rest)
  | str first token => exact .str first (string_append token rest)
  | num first token => exact .num first (number_append stops token)
  | @arr inner _ _ first deep inside =>
    obtain ⟨outer, rfl⟩ : ∃ n, deeper = n + 1 := ⟨deeper - 1, by omega⟩
    exact .arr first rfl (stand.items enough (by omega) stops inside)
  | @obj inner _ _ first deep inside =>
    obtain ⟨outer, rfl⟩ : ∃ n, deeper = n + 1 := ⟨deeper - 1, by omega⟩
    exact .obj first rfl (stand.members enough (by omega) stops inside)

theorem items_stand {first : Bool} {acc : List Json}
    (read : items (fuel + 1) depth first acc s = .ok (v, r)) :
    items (more + 1) deeper first acc (s ++ rest) = .ok (v, r ++ rest) := by
  rcases items_succ_iff.mp read with ⟨close, rfl⟩ | ⟨b, t, x, u, next, item, others⟩
  · exact items_succ_iff.mpr (.inl ⟨skipBlank_append close rest, rfl⟩)
  · exact items_succ_iff.mpr (.inr ⟨b, t ++ rest, x, u ++ rest, next.append rest,
      stand.value enough within stops item, stand.items enough within stops others⟩)

theorem members_stand {first : Bool} {acc : List (String × Json)}
    (read : members (fuel + 1) depth first acc s = .ok (v, r)) :
    members (more + 1) deeper first acc (s ++ rest) = .ok (v, r ++ rest) := by
  rcases members_succ_iff.mp read with ⟨close, rfl⟩ | ⟨b, t, next, one⟩
  · exact members_succ_iff.mpr (.inl ⟨skipBlank_append close rest, rfl⟩)
  · exact members_succ_iff.mpr (.inr ⟨b, t ++ rest, next.append rest,
      stand.member enough within stops one⟩)

theorem member_stands {acc : List (String × Json)}
    (read : member (fuel + 1) depth acc s = .ok (v, r)) :
    member (more + 1) deeper acc (s ++ rest) = .ok (v, r ++ rest) := by
  obtain ⟨key, t, u, x, w, rfl, token, ⟨c, colon, found⟩, others⟩ := member_succ_iff.mp read
  exact member_succ_iff.mpr ⟨key, t ++ rest, u ++ rest, x, w ++ rest, rfl,
    string_append token rest, ⟨c ++ rest, skipBlank_append colon rest,
      stand.value enough within stops found⟩, stand.members enough within stops others⟩

end Step

theorem readersStand (fuel : Nat) : ReadersStand fuel := by
  induction fuel with
  | zero => constructor <;> intros <;> simp_all [value, items, members, member, fail]
  | succ fuel ih =>
    have one_more {more : Nat} (enough : fuel + 1 ≤ more) : ∃ n, more = n + 1 ∧ fuel ≤ n :=
      ⟨more - 1, by omega, by omega⟩
    refine ⟨fun enough within stops read => ?_, fun enough within stops read => ?_,
      fun enough within stops read => ?_, fun enough within stops read => ?_⟩ <;>
      obtain ⟨more, rfl, less⟩ := one_more enough
    · exact value_stands ih less within stops read
    · exact items_stand ih less within stops read
    · exact members_stand ih less within stops read
    · exact member_stands ih less within stops read

/-- A value is read in the same way in front of what no number goes on with, with more fuel and
where more containers may nest. -/
theorem value_append (read : value fuel depth s = .ok (v, r)) (enough : fuel ≤ more)
    (within : depth ≤ deeper) (stops : Stops rest) :
    value more deeper (s ++ rest) = .ok (v, r ++ rest) :=
  (readersStand fuel).value enough within stops read

theorem stops_nil : Stops [] := nofun

theorem value_mono (read : value fuel depth s = .ok (v, r)) (enough : fuel ≤ more)
    (within : depth ≤ deeper) : value more deeper s = .ok (v, r) := by
  simpa using value_append read enough within stops_nil

end ScriptGate.Json
