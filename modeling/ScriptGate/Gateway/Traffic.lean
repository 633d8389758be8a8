import ScriptGate.Gateway.Exchange

/-!
# Traffic

All exchanges of a gateway and the session registry that they share, as a machine whose events may
come in any order. An event that does not apply changes nothing. An exchange that was given its
session gives it back with its reply.
-/

namespace ScriptGate.Gateway

/-- The exchanges in order of arrival and the sessions that are held. -/
structure Traffic where
  sessions : Session.Registry := {}
  exchanges : List Exchange := []

structure Terms where
  node : String
  /-- How long a session may be held. -/
  ttl : Time.Span
  /-- Whether a context version has a back-end. -/
  serves : String → Bool

/-- What can happen at a gateway. Exchanges and slots are numbered from zero. -/
inductive Event where
  /-- A body arrives; it is absent where it could not be read. -/
  | arrive (caller : Caller) (body : Option Bytes) (now : Time.Instant)
  | start (exchange slot : Nat)
  | finish (exchange slot : Nat) (ending : Ending)
  /-- The reply goes out; `salt` gives each of its responses a salt. -/
  | reply (exchange : Nat) (salt : Nat → String)
  | sweep (now : Time.Instant)

namespace Traffic

def exchange? (t : Traffic) (n : Nat) : Option Exchange := t.exchanges[n]?

def change (t : Traffic) (n : Nat) (f : Exchange → Exchange) : Traffic :=
  { t with exchanges := t.exchanges.modify n f }

def arrive (p : Terms) (t : Traffic) (caller : Caller) (body : Option Bytes) (now : Time.Instant) :
    Traffic :=
  match t.sessions.acquire caller.session now p.ttl with
  | .admitted sessions =>
    ⟨sessions, t.exchanges ++ [.admitted caller (.ofBody p.serves body)]⟩
  | .busy => { t with exchanges := t.exchanges ++ [.busy caller] }
  | .overflow => { t with exchanges := t.exchanges ++ [.aborted caller] }

def reply (p : Terms) (t : Traffic) (n : Nat) (salt : Nat → String) : Traffic :=
  match t.exchange? n with
  | some x =>
    if x.stage = .underway ∧ x.isReady then
      { (t.change n fun x => { x with stage := .replied (x.reply p.node salt) }) with
        sessions := x.guard.elim t.sessions (·.drop t.sessions) }
    else t
  | none => t

def step (p : Terms) (t : Traffic) : Event → Traffic
  | .arrive caller body now => t.arrive p caller body now
  | .start n i => t.change n (·.start i)
  | .finish n i ending => t.change n (·.finish i ending)
  | .reply n salt => t.reply p n salt
  | .sweep now => { t with sessions := t.sessions.sweep now }

def run (p : Terms) (t : Traffic) (events : List Event) : Traffic := events.foldl (step p) t

end Traffic

end ScriptGate.Gateway
