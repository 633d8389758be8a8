import ScriptGate.Proofs.Time
import ScriptGate.Session.Registry

/-!
# What the registry holds

`ids` is what a registry shows to callers. Admission adds an id that is not there, release takes
out one id and nothing else, and a sweep before any expiry takes out nothing.
-/

namespace ScriptGate.Session.Registry

def ids (r : Registry) : List String := r.entries.map Prod.fst

theorem isBusy_iff {r : Registry} {id : String} : r.isBusy id = true ↔ id ∈ r.ids := by
  simp [isBusy, ids]

theorem not_isBusy_iff {r : Registry} {id : String} : r.isBusy id = false ↔ id ∉ r.ids := by
  rw [← isBusy_iff, Bool.not_eq_true]

theorem acquire_busy_iff {r : Registry} {id : String} {now : Time.Instant} {ttl : Time.Span} :
    r.acquire id now ttl = .busy ↔ id ∈ r.ids := by
  rw [← isBusy_iff]
  unfold acquire
  cases r.isBusy id with
  | true => simp
  | false =>
    simp only [Bool.false_eq_true, if_false, iff_false]
    split <;> simp

/-- Admission needs a free id and an expiry that the clock can show, and adds one entry. -/
theorem acquire_admitted_iff {r s : Registry} {id : String} {now : Time.Instant}
    {ttl : Time.Span} :
    r.acquire id now ttl = .admitted s ↔
      id ∉ r.ids ∧ ∃ expiry, now.add? ttl = some expiry ∧ s = ⟨(id, expiry) :: r.entries⟩ := by
  rw [← isBusy_iff]
  unfold acquire
  cases r.isBusy id with
  | true => simp
  | false => cases sum : now.add? ttl <;> simp [eq_comm]

/-- Admission of a free id comes to an abrupt end where the clock cannot show the expiry. -/
theorem acquire_overflow_iff {r : Registry} {id : String} {now : Time.Instant} {ttl : Time.Span} :
    r.acquire id now ttl = .overflow ↔
      id ∉ r.ids ∧ Time.Instant.last.total < now.total + ttl.total := by
  rw [← isBusy_iff, ← Time.Instant.add?_eq_none_iff]
  unfold acquire
  cases r.isBusy id with
  | true => simp
  | false => cases now.add? ttl <;> simp

@[simp] theorem ids_cons (id : String) (expiry : Time.Instant)
    (entries : List (String × Time.Instant)) :
    ids ⟨(id, expiry) :: entries⟩ = id :: ids ⟨entries⟩ := rfl

theorem ids_release (r : Registry) (id : String) :
    (r.release id).ids = r.ids.filter (· != id) := by
  simp [ids, release, List.filter_map, Function.comp_def]

@[simp] theorem mem_ids_release {r : Registry} {id other : String} :
    other ∈ (r.release id).ids ↔ other ∈ r.ids ∧ other ≠ id := by
  simp [ids_release]

def Unexpired (r : Registry) (now : Time.Instant) : Prop :=
  ∀ entry ∈ r.entries, entry.2.le now = false

theorem sweep_of_unexpired {r : Registry} {now : Time.Instant} (unexpired : r.Unexpired now) :
    r.sweep now = r := by
  have kept : r.entries.filter (!·.2.le now) = r.entries :=
    List.filter_eq_self.mpr fun entry member => by simp [unexpired entry member]
  simp [sweep, kept]

end ScriptGate.Session.Registry
