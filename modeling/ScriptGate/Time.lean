import ScriptGate.Word

/-!
# Clock readings and spans of time

A clock reading counts seconds in sixty-four signed bits and a span of time in sixty-four unsigned
ones, each with nanoseconds. A sum that leaves the range of a reading does not exist.
-/

namespace ScriptGate.Time

def nanosPerSecond : Nat := 1000000000

def IsClockSecond (s : Int) : Prop := Word.IsSigned64 s

instance (s : Int) : Decidable (IsClockSecond s) := inferInstanceAs (Decidable (Word.IsSigned64 s))

structure Instant where
  seconds : Int
  nanos : Nat
  seconds_range : IsClockSecond seconds := by decide
  nanos_lt : nanos < nanosPerSecond := by decide
  deriving DecidableEq

structure Span where
  seconds : Nat
  nanos : Nat
  seconds_lt : seconds < Word.count64 := by decide
  nanos_lt : nanos < nanosPerSecond := by decide
  deriving DecidableEq

namespace Span

def ofSeconds (s : UInt64) : Span := ⟨s.toNat, 0, s.toNat_lt, by decide⟩

def ofMillis (ms : UInt64) : Span where
  seconds := ms.toNat / 1000
  nanos := ms.toNat % 1000 * 1000000
  seconds_lt := Nat.lt_of_le_of_lt (Nat.div_le_self _ _) ms.toNat_lt
  nanos_lt := by simp only [nanosPerSecond]; omega

def toMillis (d : Span) : Nat := d.seconds * 1000 + d.nanos / 1000000

def isZero (d : Span) : Bool := d.seconds == 0 && d.nanos == 0

end Span

namespace Instant

def ofParts? (seconds : Int) (nanos : Nat) (h : nanos < nanosPerSecond) : Option Instant :=
  if r : IsClockSecond seconds then some ⟨seconds, nanos, r, h⟩ else none

def add? (t : Instant) (d : Span) : Option Instant :=
  if h : t.nanos + d.nanos < nanosPerSecond then
    ofParts? (t.seconds + d.seconds) (t.nanos + d.nanos) h
  else
    ofParts? (t.seconds + d.seconds + 1) (t.nanos + d.nanos - nanosPerSecond)
      (by have := t.nanos_lt; have := d.nanos_lt; omega)

def le (a b : Instant) : Bool :=
  a.seconds < b.seconds || (a.seconds == b.seconds && a.nanos ≤ b.nanos)

end Instant

end ScriptGate.Time
