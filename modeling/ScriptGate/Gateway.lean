import ScriptGate.Gateway.Traffic

/-!
# The gateway

A gateway has a name, by which its responses are stamped, and a back-end for each context version
that it serves. `handle` takes one body from arrival to reply: the back-ends of its slots run in
order, each to its end before the next one starts.
-/

namespace ScriptGate

/-- A gateway whose back-ends share a state. -/
structure Gateway (σ : Type) where
  node : String
  ttl : Time.Span
  /-- The back-ends by their context versions. -/
  backends : List (String × Backend σ)

namespace Gateway

/-- Puts a back-end in the place of any other of its version. -/
def register {σ : Type} (g : Gateway σ) (version : String) (b : Backend σ) : Gateway σ :=
  { g with backends := (version, b) :: g.backends.filter (·.1 ≠ version) }

def backend? {σ : Type} (g : Gateway σ) (version : String) : Option (Backend σ) :=
  g.backends.lookup version

def terms {σ : Type} (g : Gateway σ) : Terms where
  node := g.node
  ttl := g.ttl
  serves version := (g.backend? version).isSome

/-- A gateway at work: its traffic and the state of its back-ends. -/
structure State (σ : Type) where
  traffic : Traffic := {}
  shared : σ

def serve {σ : Type} (g : Gateway σ) (n : Nat) (s : State σ) (i : Nat) : State σ :=
  match s.traffic.exchange? n with
  | none => s
  | some x =>
    match x.request? i with
    | none => s
    | some request =>
      match g.backend? request.contextVersion with
      | none => s
      | some backend =>
        let (ending, shared) := backend x.caller request s.shared
        ⟨s.traffic.run g.terms [.start n i, .finish n i ending], shared⟩

def slotCount {σ : Type} (s : State σ) (n : Nat) : Nat :=
  ((s.traffic.exchange? n).map (·.plan.slots.length)).getD 0

/-- Takes a body from arrival to reply. The exchange is the last one of the traffic. -/
def handle {σ : Type} (g : Gateway σ) (s : State σ) (caller : Caller) (body : Option Bytes)
    (now : Time.Instant) (salt : Nat → String) : State σ :=
  let n := s.traffic.exchanges.length
  let s := { s with traffic := s.traffic.step g.terms (.arrive caller body now) }
  let s := (List.range (slotCount s n)).foldl (serve g n) s
  { s with traffic := s.traffic.step g.terms (.reply n salt) }

/-- What a body is answered with: a status and a reply, or nothing where the exchange was aborted.
-/
def Exchange.outcome? (x : Exchange) : Option (Http.Status × Reply) :=
  match x.stage with
  | .replied reply => some (x.plan.status, reply)
  | .underway | .aborted => none

end Gateway

end ScriptGate
