import ScriptGate.Proofs.Gateway.Admission

/-!
# Connections and what runs behind them

A body is handed over to the gateway once its connection has read it, and from then on the exchange
goes on without the connection: a client that hangs up takes nothing with it. A back-end that runs
for a call therefore holds its session until it has ended. One that runs for a notification does so
only until the reply, which does not wait for it.
-/

namespace ScriptGate.Gateway

namespace Exchange

/-- Nothing that a reply waits for is left when it goes out. -/
def Settled (x : Exchange) : Prop :=
  x.stage ≠ .underway → ∀ i, x.awaits i = true → (x.ending? i).isSome = true

theorem settled_moves {p : Terms} {n : Nat} {e : Event} {x y : Exchange} (moves : Moves p n e x y)
    (settled : x.Settled) : y.Settled := by
  intro past i awaited
  have also : x.awaits i = true := by simpa [awaits, moves.plan] using awaited
  have kept (before : x.stage ≠ .underway) : (y.ending? i).isSome = true := by
    have ended := settled before i also
    rwa [moves.ending?_eq ended]
  cases moves with
  | stay => exact kept past
  | start x j => exact kept (by simpa using past)
  | finish x j ending => exact kept (by simpa using past)
  | reply x salt _ ready => exact x.isReady_iff.mp ready i also

theorem progress?_of_isRunning {x : Exchange} {i : Nat} (running : x.isRunning i = true) :
    x.progress? i = some .running := by simpa [isRunning] using running

end Exchange

namespace Traffic

variable {p : Terms} {t : Traffic}

theorem exchange_settled (p : Terms) (events : List Event) {n : Nat} {x : Exchange}
    (found : (run p {} events).exchange? n = some x) : x.Settled := by
  have any : Run.Along (step p) (fun _ _ => True) {} events :=
    Run.along_of_mem (fun _ _ _ => trivial) _
  refine exchanges_keep (P := Exchange.Settled) (fun t e x begins => ?_)
    (fun t e n x y _ _ moves settled => Exchange.settled_moves moves settled) any found
  cases begins with
  | admitted => exact fun past => absurd rfl past
  | busy => exact fun past => absurd rfl past
  | aborted caller =>
    intro _ i awaited
    simp [Exchange.awaits, Exchange.aborted, Plan.slots] at awaited

/-- A back-end that is running was started for an exchange that had its session. -/
theorem admitted_of_isRunning {events : List Event} {n i : Nat} {x : Exchange}
    (found : (run p {} events).exchange? n = some x) (running : x.isRunning i = true) :
    x.Admitted := by
  have stands := Exchange.progress?_of_isRunning running
  rcases exchange_kinds p events found with admitted | away | aborted
  · exact admitted
  · simp [Exchange.progress?, away.progress] at stands
  · rw [aborted] at stands
    simp [Exchange.progress?, Exchange.aborted] at stands

/-- While a back-end runs its exchange is in flight, if it runs for a call or the reply is not yet
out. -/
theorem inFlight_of_isRunning {events : List Event} {n i : Nat} {x : Exchange}
    (found : (run p {} events).exchange? n = some x) (running : x.isRunning i = true) :
    (run p {} events).InFlight n x.caller.session ↔ x.awaits i = true ∨ x.stage = .underway := by
  have admitted := admitted_of_isRunning found running
  refine ⟨fun ⟨y, also, _, underway, _⟩ => ?_, fun cause => ?_⟩
  · obtain rfl : x = y := Option.some.inj (found.symm.trans also)
    exact .inr underway
  · have underway : x.stage = .underway := by
      rcases cause with awaited | underway
      -- The reply waits for a call, so it cannot have gone out while the call runs.
      · by_contra past
        have ended := exchange_settled p events found past i awaited
        simp [Exchange.ending?, Exchange.progress?_of_isRunning running, Progress.ending?] at ended
      · exact underway
    exact ⟨x, found, by simp [admitted.guard], underway, rfl⟩

end Traffic

end ScriptGate.Gateway

namespace ScriptGate.Http

/-- A connection whose request is for the gateway. -/
structure Connection where
  caller : Caller
  isOpen : Bool := true
  /-- The exchange that its body was handed to. -/
  exchange : Option Nat := none

/-- Whether a connection can still hand a body over. One that has been hung up can only fail. -/
def Connection.takes (k : Connection) (body : Option Bytes) : Bool :=
  k.exchange.isNone && (k.isOpen || body.isNone)

/-- The connections of a server and the traffic behind them. -/
structure Hub where
  traffic : Gateway.Traffic := {}
  connections : List Connection := []

namespace Hub

/-- What can happen at a server. Connections are numbered from zero. -/
inductive Event where
  | accept (caller : Caller)
  /-- The body of a connection has been read, or cannot be. -/
  | receive (connection : Nat) (body : Option Bytes) (now : Time.Instant)
  | hangUp (connection : Nat)
  /-- Something goes on at the gateway. -/
  | gateway (event : Gateway.Event)

def step (p : Gateway.Terms) (h : Hub) : Event → Hub
  | .accept caller => { h with connections := h.connections ++ [{ caller }] }
  | .receive n body now =>
    match h.connections[n]? with
    | some k =>
      if k.takes body then
        { traffic := h.traffic.step p (.arrive k.caller body now)
          connections :=
            h.connections.set n { k with exchange := some h.traffic.exchanges.length } }
      else h
    | none => h
  | .hangUp n =>
    { h with connections := h.connections.modify n fun k => { k with isOpen := false } }
  | .gateway e => { h with traffic := h.traffic.step p e }

def run (p : Gateway.Terms) (h : Hub) (events : List Event) : Hub := events.foldl (step p) h

def seen? (h : Hub) : Event → Option Gateway.Event
  | .receive n body now =>
    match h.connections[n]? with
    | some k => if k.takes body then some (.arrive k.caller body now) else none
    | none => none
  | .gateway e => some e
  | .accept _ | .hangUp _ => none

def trace (p : Gateway.Terms) : Hub → List Event → List Gateway.Event
  | _, [] => []
  | h, e :: rest => (h.seen? e).toList ++ trace p (h.step p e) rest

/-- A sweep finds no expired hold. -/
def Timely (h : Hub) (e : Event) : Prop := ∀ g ∈ h.seen? e, h.traffic.Timely g

variable {p : Gateway.Terms}

theorem traffic_step (p : Gateway.Terms) (h : Hub) (e : Event) :
    (h.step p e).traffic = h.traffic.run p (h.seen? e).toList := by
  cases e with
  | accept caller | hangUp n | gateway e => rfl
  | receive n body now =>
    simp only [step, seen?]
    split
    · split <;> rfl
    · rfl

/-- The traffic behind the connections is a run of the gateway. -/
theorem traffic_run (p : Gateway.Terms) (h : Hub) (events : List Event) :
    (h.run p events).traffic = h.traffic.run p (h.trace p events) := by
  induction events generalizing h with
  | nil => rfl
  | cons e rest ih =>
    have later := ih (h.step p e)
    rw [traffic_step, ← Gateway.Traffic.run_append] at later
    exact later

theorem timely_of_ne_sweep (h : Hub) {e : Event} (other : ∀ now, e ≠ .gateway (.sweep now)) :
    h.Timely e := by
  intro g seen
  cases e with
  | accept caller | hangUp n => simp [seen?] at seen
  | receive n body now =>
    simp only [seen?] at seen
    split at seen
    · split at seen
      · obtain rfl := Option.some.inj seen
        trivial
      · simp at seen
    · simp at seen
  | gateway event =>
    obtain rfl : event = g := Option.some.inj seen
    cases event with
    | sweep now => exact absurd rfl (other now)
    | arrive | start | finish | reply => trivial

theorem timely_trace {h : Hub} {events : List Event} (timely : Run.Along (step p) Timely h events) :
    Run.Along (Gateway.Traffic.step p) Gateway.Traffic.Timely h.traffic (h.trace p events) := by
  induction events generalizing h with
  | nil => trivial
  | cons e rest ih =>
    refine Run.along_append.mpr ⟨?_, ?_⟩
    · cases seen : h.seen? e with
      | none => trivial
      | some g => exact ⟨timely.1 g seen, trivial⟩
    · have later := ih timely.2
      rw [traffic_step] at later
      exact later

/-- The back-end of a slot is running for the session of its caller. -/
def runs (h : Hub) (n i : Nat) (id : String) : Bool :=
  (h.traffic.exchange? n).any fun x => x.isRunning i && x.caller.session == id

/-- An exchange keeps a session in the registry, and is the only one that does. -/
def Holds (h : Hub) (n : Nat) (id : String) : Prop :=
  h.traffic.sessions.isBusy id = true ∧ h.traffic.InFlight n id ∧
    ∀ m, h.traffic.InFlight m id → m = n

/-- A reply is still to come for a slot, or for the body that it is a part of. -/
def pending (h : Hub) (n i : Nat) : Bool :=
  (h.traffic.exchange? n).any fun x => x.awaits i || x.stage = .underway

/-- Whatever runs for a session runs for the exchange that holds it. -/
def SingleFlight (h : Hub) : Prop :=
  (∀ n i id, h.runs n i id = true → h.Holds n id) ∧
    ∀ n i m j id, h.runs n i id = true → h.runs m j id = true → n = m

/-- The exchange behind a running back-end holds its session exactly as long as a reply is to come.
Back-ends that run for a call, or before the reply to their body, under one session are therefore
of one exchange. -/
theorem running_holds_iff (p : Gateway.Terms) (events : List Event)
    (timely : Run.Along (step p) Timely {} events) :
    let h := run p {} events
    (∀ n i id, h.runs n i id = true → (h.Holds n id ↔ h.pending n i = true)) ∧
    ∀ n i m j id, h.runs n i id = true → h.pending n i = true → h.runs m j id = true →
      h.pending m j = true → n = m := by
  intro h
  have traffic : h.traffic = Gateway.Traffic.run p {} (trace p {} events) := traffic_run p {} events
  have accounted := Gateway.Traffic.accounted_run Gateway.Traffic.accounted_empty
    (timely_trace timely)
  have holds_iff (n i : Nat) (id : String) (running : h.runs n i id = true) :
      h.Holds n id ↔ h.pending n i = true := by
    simp only [runs, Option.any_eq_true, Bool.and_eq_true, beq_iff_eq] at running
    obtain ⟨x, found, runs, rfl⟩ := running
    have pending : h.pending n i = true ↔ x.awaits i = true ∨ x.stage = .underway := by
      simp [pending, found]
    rw [traffic] at found
    rw [pending, ← Gateway.Traffic.inFlight_of_isRunning found runs, Holds, traffic]
    exact ⟨fun holds => holds.2.1, fun flight =>
      ⟨Gateway.Traffic.isBusy_of_inFlight accounted flight, flight,
        fun m also => Gateway.Traffic.inFlight_unique accounted also flight⟩⟩
  refine ⟨holds_iff, fun n i m j id first pending second also => ?_⟩
  have holds := (holds_iff n i id first).mpr pending
  have others := (holds_iff m j id second).mpr also
  exact others.2.2 n holds.2.1

/-- The back-end of a call runs and holds its session when its client has hung up. -/
theorem running_holds_after_hangUp :
    let p : Gateway.Terms := { node := "n", ttl := .ofSeconds 60, serves := fun _ => true }
    let now : Time.Instant := ⟨0, 0, by decide, by decide⟩
    let call : Rpc.Request := { id := some (.int 1), method := "m", contextVersion := "v1" }
    (run p {} [.accept { session := "s" }, .receive 0 (some call.encode) now,
      .gateway (.start 0 0), .hangUp 0]).Holds 0 "s" := by
  intro p now call
  refine ((running_holds_iff p [.accept { session := "s" }, .receive 0 (some call.encode) now,
    .gateway (.start 0 0), .hangUp 0] ?_).1 0 0 "s" (by decide +kernel)).mpr (by decide +kernel)
  exact Run.along_of_mem (fun e member h => timely_of_ne_sweep h fun at_ equal => by
    simp [equal] at member) _

/-- A notification is answered before its back-end has ended, and a call comes in on the session
that is free again: two bodies have a back-end running for it, and only one of them holds it. -/
theorem notification_outlives_hold :
    let p : Gateway.Terms := { node := "n", ttl := .ofSeconds 60, serves := fun _ => true }
    let now : Time.Instant := ⟨0, 0, by decide, by decide⟩
    let notification : Rpc.Request := { method := "m", contextVersion := "v1" }
    let call : Rpc.Request := { notification with id := some (.int 1) }
    let events : List Event := [.accept { session := "s" }, .accept { session := "s" },
      .receive 0 (some notification.encode) now, .gateway (.start 0 0),
      .gateway (.reply 0 fun _ => ""), .receive 1 (some call.encode) now, .gateway (.start 1 0)]
    Run.Along (step p) Timely {} events ∧ ¬ (run p {} events).SingleFlight := by
  intro p now notification call events
  have timely : Run.Along (step p) Timely {} events :=
    Run.along_of_mem (fun e member h => timely_of_ne_sweep h fun at_ equal => by
      simp [events, equal] at member) _
  have first : (run p {} events).runs 0 0 "s" = true := by decide +kernel
  have second : (run p {} events).runs 1 0 "s" = true := by decide +kernel
  exact ⟨timely, fun flight => absurd (flight.2 0 0 1 0 "s" first second) (by decide)⟩

end Hub

end ScriptGate.Http
