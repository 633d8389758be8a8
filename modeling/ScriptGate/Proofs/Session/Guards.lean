import ScriptGate.Proofs.Holding
import ScriptGate.Proofs.Run
import ScriptGate.Proofs.Session.Registry

/-!
# Guards and the entries that they free

A guard names a session and not the admission that gave it, so dropping it frees whatever entry the
session has by then. A `Book` keeps the admissions of a run beside the registry and says of each
whether its guard is live and whether its own entry is still there. `Exclusive` is what a caller
expects of guards; `exclusive_iff_entered` shows that it is safe from now on exactly if every live
guard still has its entry, which only a sweep after the expiry can take from it.
-/

namespace ScriptGate.Session

structure Hold where
  id : String
  expiry : Time.Instant
  /-- Whether its guard has yet to be dropped. -/
  live : Bool := true
  /-- Whether the entry that it made is still in the registry. -/
  entered : Bool := true

namespace Hold

/-- The entry that the admission made, while it is in the registry. -/
def shown? (h : Hold) : Option (String × Time.Instant) :=
  if h.entered then some (h.id, h.expiry) else none

def heldId? (h : Hold) : Option String := if h.entered then some h.id else none

def retire (h : Hold) : Hold := { h with live := false }

def release (id : String) (h : Hold) : Hold := { h with entered := h.entered && h.id != id }

def sweep (now : Time.Instant) (h : Hold) : Hold :=
  { h with entered := h.entered && !h.expiry.le now }

theorem shown?_release (id : String) (h : Hold) :
    (h.release id).shown? = h.shown?.filter (·.1 != id) := by
  cases entered : h.entered <;> simp [shown?, release, entered, Option.filter]

theorem shown?_sweep (now : Time.Instant) (h : Hold) :
    (h.sweep now).shown? = h.shown?.filter (!·.2.le now) := by
  cases entered : h.entered <;> simp [shown?, sweep, entered, Option.filter]

theorem map_shown? (h : Hold) : h.shown?.map Prod.fst = h.heldId? := by
  cases entered : h.entered <;> simp [shown?, heldId?, entered]

end Hold

/-- A registry and the admissions of a run in order. -/
structure Book where
  registry : Registry := {}
  holds : List Hold := []

/-- What can happen to a registry. Admissions are numbered from zero. -/
inductive Event where
  | acquire (id : String) (now : Time.Instant) (ttl : Time.Span)
  /-- The guard of an admission is dropped at the end of its scope. -/
  | drop (hold : Nat)
  /-- The guard of an admission is dropped because its holder unwinds. -/
  | unwind (hold : Nat)
  | sweep (now : Time.Instant)

namespace Book

def acquire (b : Book) (id : String) (now : Time.Instant) (ttl : Time.Span) : Book :=
  match b.registry.acquire id now ttl, now.add? ttl with
  | .admitted registry, some expiry => ⟨registry, b.holds ++ [{ id, expiry }]⟩
  | _, _ => b

def drop (b : Book) (n : Nat) : Book :=
  match b.holds[n]? with
  | some h =>
    if h.live then
      ⟨(Guard.mk h.id).drop b.registry, (b.holds.map (Hold.release h.id)).modify n Hold.retire⟩
    else b
  | none => b

def step (b : Book) : Event → Book
  | .acquire id now ttl => b.acquire id now ttl
  | .drop n | .unwind n => b.drop n
  | .sweep now => ⟨b.registry.sweep now, b.holds.map (Hold.sweep now)⟩

def run (b : Book) (events : List Event) : Book := events.foldl step b

/-- Whether dropping guard `n` takes the entry of admission `m` out. -/
def frees (b : Book) (n m : Nat) : Bool :=
  b.holds[m]?.any (·.entered) && !(b.drop n).holds[m]?.any (·.entered)

/-- Whether guard `n` is live and its admission to this id has not expired. -/
def guards (b : Book) (n : Nat) (id : String) (now : Time.Instant) : Bool :=
  b.holds[n]?.any fun h => h.live && h.id == id && !h.expiry.le now

/-- A guard frees no entry but its own, and no id has two live guards that have not expired. -/
def Exclusive (b : Book) : Prop :=
  (∀ n m, b.frees n m = true → m = n) ∧
  ∀ id now n m, b.guards n id now = true → b.guards m id now = true → n = m

/-- Every live guard has its entry. -/
def Entered (b : Book) : Prop := ∀ h ∈ b.holds, h.live = true → h.entered = true

/-- A sweep finds no expired entry whose guard is live. -/
def Timely (b : Book) : Event → Prop
  | .sweep now => ∀ h ∈ b.holds, h.live = true → h.entered = true → h.expiry.le now = false
  | .acquire .. | .drop _ | .unwind _ => True

/-! ### The registry holds the entries of the admissions -/

/-- The entries of the registry are those of the admissions, the last one first, and no id has
two. -/
structure Faithful (b : Book) : Prop where
  entries : b.registry.entries = (b.holds.filterMap Hold.shown?).reverse
  nodup : (b.holds.filterMap Hold.heldId?).Nodup

theorem faithful_empty : Faithful {} := ⟨rfl, by simp⟩

theorem Faithful.ids {b : Book} (faithful : b.Faithful) :
    b.registry.ids = (b.holds.filterMap Hold.heldId?).reverse := by
  simp [Registry.ids, faithful.entries, List.map_filterMap, Hold.map_shown?]

/-- Taking the entries out that fail a test of the entry, in the registry and in the book. -/
theorem faithful_filter {b : Book} (faithful : b.Faithful) (keep : String × Time.Instant → Bool)
    {change : Hold → Hold} (same : ∀ h, (change h).shown? = h.shown?.filter keep) :
    Faithful ⟨⟨b.registry.entries.filter keep⟩, b.holds.map change⟩ := by
  refine ⟨?_, ?_⟩
  · simp [faithful.entries, List.filterMap_map, List.filter_reverse, List.filter_filterMap,
      same]
  · refine List.Nodup.sublist ?_ faithful.nodup
    have ids : (b.holds.map change).filterMap Hold.heldId? =
        ((b.holds.filterMap Hold.shown?).filter keep).map Prod.fst := by
      simp [List.filterMap_map, List.map_filterMap, List.filter_filterMap, ← Hold.map_shown?, same]
    have before : b.holds.filterMap Hold.heldId? =
        (b.holds.filterMap Hold.shown?).map Prod.fst := by
      simp [List.map_filterMap, Hold.map_shown?]
    rw [ids, before]
    exact List.filter_sublist.map Prod.fst

theorem acquire_cases (b : Book) (id : String) (now : Time.Instant) (ttl : Time.Span) :
    b.acquire id now ttl = b ∨ ∃ expiry, id ∉ b.registry.ids ∧ now.add? ttl = some expiry ∧
      b.acquire id now ttl =
        ⟨⟨(id, expiry) :: b.registry.entries⟩, b.holds ++ [({ id, expiry } : Hold)]⟩ := by
  unfold acquire
  split
  · rename_i registry expiry admitted sum
    obtain ⟨free, other, same, rfl⟩ := Registry.acquire_admitted_iff.mp admitted
    obtain rfl : expiry = other := Option.some.inj (sum.symm.trans same)
    exact .inr ⟨expiry, free, sum, rfl⟩
  · exact .inl rfl

theorem faithful_acquire {b : Book} (faithful : b.Faithful) (id : String) (now : Time.Instant)
    (ttl : Time.Span) : (b.acquire id now ttl).Faithful := by
  rcases b.acquire_cases id now ttl with same | ⟨expiry, free, _, equal⟩
  · rw [same]; exact faithful
  · rw [equal]
    refine ⟨by simp [faithful.entries, Hold.shown?], ?_⟩
    rw [faithful.ids, List.mem_reverse] at free
    simp only [List.filterMap_append, List.filterMap_cons, Hold.heldId?, if_true,
      List.filterMap_nil]
    refine List.nodup_append.mpr ⟨faithful.nodup, by simp, ?_⟩
    rintro other member new single rfl
    obtain rfl : other = id := by simpa using single
    exact free member

theorem drop_cases (b : Book) (n : Nat) :
    b.drop n = b ∨ ∃ h, b.holds[n]? = some h ∧ h.live = true ∧
      b.drop n = ⟨b.registry.release h.id,
        (b.holds.map (Hold.release h.id)).modify n Hold.retire⟩ := by
  unfold drop
  split
  · rename_i h found
    split
    · rename_i live
      exact .inr ⟨h, found, live, rfl⟩
    · exact .inl rfl
  · exact .inl rfl

theorem faithful_drop {b : Book} (faithful : b.Faithful) (n : Nat) : (b.drop n).Faithful := by
  rcases b.drop_cases n with same | ⟨h, found, live, equal⟩
  · rw [same]; exact faithful
  · rw [equal]
    have released := faithful_filter faithful (·.1 != h.id) (Hold.shown?_release h.id)
    have entries : ((b.holds.map (Hold.release h.id)).modify n Hold.retire).filterMap Hold.shown? =
        (b.holds.map (Hold.release h.id)).filterMap Hold.shown? :=
      Holding.keys_modify_same fun _ _ => rfl
    have ids : ((b.holds.map (Hold.release h.id)).modify n Hold.retire).filterMap Hold.heldId? =
        (b.holds.map (Hold.release h.id)).filterMap Hold.heldId? :=
      Holding.keys_modify_same fun _ _ => rfl
    exact ⟨by rw [entries]; exact released.entries, by rw [ids]; exact released.nodup⟩

theorem faithful_step {b : Book} (faithful : b.Faithful) (e : Event) : (b.step e).Faithful := by
  cases e with
  | acquire id now ttl => exact faithful_acquire faithful id now ttl
  | drop n | unwind n => exact faithful_drop faithful n
  | sweep now => exact faithful_filter faithful _ (Hold.shown?_sweep now)

theorem faithful_run {b : Book} (faithful : b.Faithful) (events : List Event) :
    (b.run events).Faithful := by
  induction events generalizing b with
  | nil => exact faithful
  | cons e rest ih => exact ih (faithful_step faithful e)

/-! ### Exclusion -/

theorem exists_entered {b : Book} (faithful : b.Faithful) {id : String}
    (busy : id ∈ b.registry.ids) :
    ∃ (m : Nat) (h : Hold), b.holds[m]? = some h ∧ h.entered = true ∧ h.id = id := by
  rw [faithful.ids, List.mem_reverse, List.mem_filterMap] at busy
  obtain ⟨h, member, held⟩ := busy
  obtain ⟨m, found⟩ := List.mem_iff_getElem?.mp member
  cases entered : h.entered with
  | true => exact ⟨m, h, found, entered, by simpa [Hold.heldId?, entered] using held⟩
  | false => simp [Hold.heldId?, entered] at held

theorem entered_unique {b : Book} (faithful : b.Faithful) {n m : Nat} {h k : Hold}
    (first : b.holds[n]? = some h) (second : b.holds[m]? = some k) (entered : h.entered = true)
    (also : k.entered = true) (same : h.id = k.id) : n = m :=
  have holds : h.heldId? = some k.id := by simp [Hold.heldId?, entered, same]
  Holding.holder_unique faithful.nodup first second holds (by simp [Hold.heldId?, also])

/-- Dropping a live guard takes out the entries of its id, whoever made them. -/
theorem frees_iff (b : Book) (n m : Nat) :
    b.frees n m = true ↔ ∃ h k : Hold, b.holds[n]? = some h ∧ h.live = true ∧
      b.holds[m]? = some k ∧ k.entered = true ∧ k.id = h.id := by
  unfold frees
  cases found : b.holds[n]? with
  | none => simp [drop, found]
  | some h =>
    cases live : h.live with
    | false => simp [drop, found, live]
    | true =>
      have behind : ((b.drop n).holds[m]?.any fun k => k.entered) =
          b.holds[m]?.any fun k => k.entered && k.id != h.id := by
        simp only [drop, found, live, if_true, List.getElem?_modify, List.getElem?_map]
        cases b.holds[m]? with
        | none => simp
        | some k => by_cases same : n = m <;> simp [same, Hold.release, Hold.retire]
      rw [behind]
      cases b.holds[m]? with
      | none => simp
      | some k => cases entered : k.entered <;> simp [live, entered]

/-- While every live guard has its entry, the guards exclude each other. -/
theorem exclusive_of_entered {b : Book} (faithful : b.Faithful) (entered : b.Entered) :
    b.Exclusive := by
  refine ⟨fun n m frees => ?_, fun id now n m first second => ?_⟩
  · obtain ⟨h, k, found, live, other, held, same⟩ := (frees_iff b n m).mp frees
    have own := entered h (List.mem_of_getElem? found) live
    exact entered_unique faithful other found held own same
  · simp only [guards, Option.any_eq_true, Bool.and_eq_true, beq_iff_eq] at first second
    obtain ⟨h, found, ⟨live, rfl⟩, -⟩ := first
    obtain ⟨k, other, ⟨also, same⟩, -⟩ := second
    exact entered_unique faithful found other (entered h (List.mem_of_getElem? found) live)
      (entered k (List.mem_of_getElem? other) also) same.symm

theorem entered_drop {b : Book} (faithful : b.Faithful) (entered : b.Entered) (n : Nat) :
    (b.drop n).Entered := by
  rcases b.drop_cases n with same | ⟨h, found, live, equal⟩
  · rw [same]; exact entered
  · rw [equal]
    intro k member alive
    obtain ⟨m, at_m⟩ := List.mem_iff_getElem?.mp member
    rw [List.getElem?_modify, List.getElem?_map, Option.map_eq_map, Option.map_map] at at_m
    obtain ⟨old, other, rfl⟩ := Option.map_eq_some_iff.mp at_m
    by_cases same : n = m
    · simp [same, Hold.retire] at alive
    · simp only [Function.comp_apply, same, if_false, Hold.release, Bool.and_eq_true,
        bne_iff_ne] at alive ⊢
      have held := entered old (List.mem_of_getElem? other) alive
      have own := entered h (List.mem_of_getElem? found) live
      exact ⟨held, fun equal => same (entered_unique faithful found other own held equal.symm)⟩

theorem entered_step {b : Book} (faithful : b.Faithful) {e : Event} (timely : b.Timely e)
    (entered : b.Entered) : (b.step e).Entered := by
  cases e with
  | acquire id now ttl =>
    rcases b.acquire_cases id now ttl with same | ⟨expiry, -, -, equal⟩
    · rw [step, same]; exact entered
    · intro h member live
      simp only [step, equal, List.mem_append, List.mem_singleton] at member
      rcases member with old | rfl
      · exact entered h old live
      · rfl
  | drop n | unwind n => exact entered_drop faithful entered n
  | sweep now =>
    intro h member live
    obtain ⟨old, kept, rfl⟩ := List.mem_map.mp member
    have held := entered old kept live
    simp [Hold.sweep, held, timely old kept live held]

theorem entered_along {b : Book} {events : List Event} (faithful : b.Faithful)
    (entered : b.Entered) (timely : Run.Along step Timely b events) :
    (b.run events).Entered :=
  (Run.run_keeps (P := fun b => b.Faithful ∧ b.Entered)
    (fun _ e timely before =>
      ⟨faithful_step before.1 e, entered_step before.1 timely before.2⟩)
    timely ⟨faithful, entered⟩).2

theorem exists_admission (b : Book) {id : String} (free : id ∉ b.registry.ids) :
    ∃ now ttl expiry, (b.acquire id now ttl).holds = b.holds ++ [({ id, expiry } : Hold)] := by
  refine ⟨⟨0, 0, by decide, by decide⟩, .ofSeconds 1, ⟨1, 0, by decide, by decide⟩, ?_⟩
  have sum : Time.Instant.add? ⟨0, 0, by decide, by decide⟩ (Time.Span.ofSeconds 1) =
      some ⟨1, 0, by decide, by decide⟩ := by decide
  simp [acquire, Registry.acquire, Registry.not_isBusy_iff.mpr free, sum]

/-- A live guard without its entry frees another one's, at once or after one more admission. -/
theorem not_exclusive_of_stale {b : Book} (faithful : b.Faithful) {h : Hold}
    (member : h ∈ b.holds) (live : h.live = true) (gone : h.entered = false) :
    ∃ later, Run.Along step Timely b later ∧ ¬ (b.run later).Exclusive := by
  obtain ⟨n, found⟩ := List.mem_iff_getElem?.mp member
  have bound : n < b.holds.length := (List.getElem?_eq_some_iff.mp found).1
  -- Either another admission has the id already, or one more is given it.
  by_cases busy : h.id ∈ b.registry.ids
  · obtain ⟨m, k, other, held, same⟩ := exists_entered faithful busy
    refine ⟨[], trivial, fun exclusive => ?_⟩
    obtain rfl := exclusive.1 n m ((frees_iff b n m).mpr ⟨h, k, found, live, other, held, same⟩)
    obtain rfl : k = h := Option.some.inj (other.symm.trans found)
    exact absurd held (by simp [gone])
  · obtain ⟨now, ttl, expiry, admitted⟩ := exists_admission b busy
    have holds : (b.run [.acquire h.id now ttl]).holds = b.holds ++ [{ id := h.id, expiry }] :=
      admitted
    refine ⟨[.acquire h.id now ttl], ⟨trivial, trivial⟩, fun exclusive => ?_⟩
    have frees := (frees_iff _ n b.holds.length).mpr
      ⟨h, { id := h.id, expiry }, by rw [holds, List.getElem?_append_left bound, found], live,
        by simp [holds], rfl, rfl⟩
    exact absurd (exclusive.1 n b.holds.length frees) (by omega)

/-- Guards exclude each other as long as no sweep comes after the expiry of a live one. At the end
of any run they go on doing so exactly if every live guard has its entry. -/
theorem exclusive_iff_entered (events : List Event) :
    (Run.Along step Timely {} events → (run {} events).Exclusive) ∧
    ((∀ later, Run.Along step Timely (run {} events) later →
        ((run {} events).run later).Exclusive) ↔ (run {} events).Entered) := by
  have faithful : (run {} events).Faithful := faithful_run faithful_empty events
  refine ⟨fun timely => ?_, fun exclusive h member live => ?_, fun entered later timely => ?_⟩
  · have entered : (run {} events).Entered :=
      entered_along faithful_empty (fun _ member => absurd member (by simp)) timely
    exact exclusive_of_entered faithful entered
  · by_contra gone
    obtain ⟨later, timely, violated⟩ :=
      not_exclusive_of_stale faithful member live (by simpa using gone)
    exact violated (exclusive later timely)
  · exact exclusive_of_entered (faithful_run faithful later)
      (entered_along faithful entered timely)

/-- A hold of a second is swept two seconds later while its guard lives on. The next admission has
an hour to go when that guard is dropped, which frees the id, and a third one is let in beside
it. -/
theorem late_drop_frees_later_admission :
    let at_ (s : Nat) (h : Time.IsClockSecond s) : Time.Instant := ⟨s, 0, h, by decide⟩
    let before := run {} [.acquire "a" (at_ 0 (by decide)) (.ofSeconds 1),
      .sweep (at_ 2 (by decide)), .acquire "a" (at_ 3 (by decide)) (.ofSeconds 3600)]
    let after := before.run [.drop 0, .acquire "a" (at_ 4 (by decide)) (.ofSeconds 3600)]
    before.frees 0 1 = true ∧ before.guards 1 "a" (at_ 3 (by decide)) = true ∧
      after.guards 1 "a" (at_ 4 (by decide)) = true ∧
      after.guards 2 "a" (at_ 4 (by decide)) = true := by
  decide +kernel

end Book

end ScriptGate.Session
