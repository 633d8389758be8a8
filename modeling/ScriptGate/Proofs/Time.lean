import ScriptGate.Time

/-!
# Clock readings as numbers

A clock reading and a span of time each come to a number of nanoseconds. Readings are in order as
their numbers are, and the reading a span later exists as long as the sum is not past the last one.
-/

namespace ScriptGate.Time

theorem nanosPerSecond_pos : 0 < nanosPerSecond := by decide

def Span.total (d : Span) : Int := d.seconds * nanosPerSecond + d.nanos

theorem Span.total_pos_iff {d : Span} : 0 < d.total ↔ d.isZero = false := by
  have carry : (nanosPerSecond : Int) = 1000000000 := rfl
  rw [← Bool.not_eq_true, isZero, Bool.and_eq_true, beq_iff_eq, beq_iff_eq, total, carry]
  omega

namespace Instant

def total (t : Instant) : Int := t.seconds * nanosPerSecond + t.nanos

/-- The last reading that the clock can show. -/
def last : Instant where
  seconds := Word.greatest64
  nanos := 999999999

theorem le_iff {a b : Instant} : a.le b = true ↔ a.total ≤ b.total := by
  have carry : (nanosPerSecond : Int) = 1000000000 := rfl
  have first := a.nanos_lt
  have second := b.nanos_lt
  simp only [le, Bool.or_eq_true, Bool.and_eq_true, decide_eq_true_eq, beq_iff_eq, total, carry]
  simp only [nanosPerSecond] at first second
  omega

theorem ofParts?_eq_some_iff {seconds : Int} {nanos : Nat} {h : nanos < nanosPerSecond}
    {t : Instant} : ofParts? seconds nanos h = some t ↔ t.seconds = seconds ∧ t.nanos = nanos := by
  constructor
  · intro made
    unfold ofParts? at made
    split at made
    · obtain rfl := Option.some.inj made
      exact ⟨rfl, rfl⟩
    · cases made
  · rintro ⟨rfl, rfl⟩
    exact dif_pos t.seconds_range

theorem ofParts?_eq_none_iff {seconds : Int} {nanos : Nat} {h : nanos < nanosPerSecond} :
    ofParts? seconds nanos h = none ↔ ¬ IsClockSecond seconds := by
  unfold ofParts?
  split <;> simp [*]

/-- A sum is exact where it exists. -/
theorem add?_eq_some_iff {t u : Instant} {d : Span} :
    t.add? d = some u ↔ u.total = t.total + d.total := by
  have carry : (nanosPerSecond : Int) = 1000000000 := rfl
  have small := u.nanos_lt
  have first := t.nanos_lt
  have second := d.nanos_lt
  unfold add?
  split <;> rename_i within <;> rw [ofParts?_eq_some_iff] <;>
    simp only [total, Span.total, carry] <;> simp only [nanosPerSecond] at * <;> omega

/-- There is no sum past the last reading. -/
theorem add?_eq_none_iff {t : Instant} {d : Span} :
    t.add? d = none ↔ last.total < t.total + d.total := by
  have carry : (nanosPerSecond : Int) = 1000000000 := rfl
  have range := t.seconds_range.1
  have first := t.nanos_lt
  have second := d.nanos_lt
  unfold add?
  split <;> rename_i within <;> rw [ofParts?_eq_none_iff] <;>
    simp only [total, Span.total, last, carry, IsClockSecond, Word.IsSigned64] <;>
    simp only [nanosPerSecond] at * <;> omega

end Instant

end ScriptGate.Time
