import ScriptGate.Time

/-!
# The session registry

A session has at most one call in flight. Its id is in the registry from admission until release, or
until a sweep after its expiry. Admission answers at once: it never waits for another call.
-/

namespace ScriptGate.Session

/-- The held session ids with the time at which each hold expires. -/
structure Registry where
  entries : List (String × Time.Instant) := []

inductive Admission where
  /-- The session is held by the asking call from now on. -/
  | admitted (registry : Registry)
  /-- Another call holds the session. -/
  | busy
  /-- The expiry lies beyond what the clock can show, and the call comes to an abrupt end. -/
  | overflow

namespace Registry

def isBusy (r : Registry) (id : String) : Bool := r.entries.any (·.1 == id)

def acquire (r : Registry) (id : String) (now : Time.Instant) (ttl : Time.Span) : Admission :=
  if r.isBusy id then .busy
  else
    match now.add? ttl with
    | some expiry => .admitted ⟨(id, expiry) :: r.entries⟩
    | none => .overflow

/-- Frees a session, whoever holds it. -/
def release (r : Registry) (id : String) : Registry := ⟨r.entries.filter (·.1 != id)⟩

def sweep (r : Registry) (now : Time.Instant) : Registry := ⟨r.entries.filter (!·.2.le now)⟩

def size (r : Registry) : Nat := r.entries.length

end Registry

/-- Proof of an admission. Dropping it frees the session that it names. -/
structure Guard where
  id : String
  deriving DecidableEq

def Guard.drop (g : Guard) (r : Registry) : Registry := r.release g.id

end ScriptGate.Session
