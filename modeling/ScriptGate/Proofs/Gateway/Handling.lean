import ScriptGate.Proofs.Gateway.Admission
import ScriptGate.Proofs.Gateway.Correspondence

/-!
# A body from arrival to reply

What `handle` comes to, in one equation: the exchange is opened, the back-ends of its slots run one
after the other, its reply goes out, and the sessions are what they were. A gateway whose back-ends
keep a list of what they are asked does the same, and its list tells which of them ran.
-/

namespace ScriptGate

namespace Session.Registry

/-- A session that was free is given back as if it had not been held. -/
theorem release_admitted {r s : Registry} {id : String} {now : Time.Instant} {ttl : Time.Span}
    (admitted : r.acquire id now ttl = .admitted s) : s.release id = r := by
  obtain ⟨free, expiry, -, rfl⟩ := acquire_admitted_iff.mp admitted
  have others : r.entries.filter (·.1 != id) = r.entries := by
    refine List.filter_eq_self.mpr fun entry member => ?_
    have apart : entry.1 ≠ id := fun same => free (same ▸ List.mem_map_of_mem member)
    simpa using apart
  simp [release, others]

end Session.Registry

namespace Gateway

open Rpc (Request)

variable {σ : Type} {g : Gateway σ} {caller : Caller} {body : Option Bytes} {now : Time.Instant}
  {salt : Nat → String} {n i : Nat} {x : Exchange}

/-! ### One back-end after the other -/

def Slot.backend? (g : Gateway σ) (slot : Slot) : Option (Backend σ × Request) :=
  slot.request?.bind fun r => (g.backend? r.contextVersion).map (·, r)

/-- How far slots get whose back-ends run one after the other, and the state that these leave. -/
def serveSlots (g : Gateway σ) (caller : Caller) : List Slot → σ → List Progress × σ
  | [], s => ([], s)
  | slot :: rest, s =>
    match slot.backend? g with
    | none =>
      let (others, last) := g.serveSlots caller rest s
      (.waiting :: others, last)
    | some (backend, r) =>
      let (ending, next) := backend caller r s
      let (others, last) := g.serveSlots caller rest next
      (.ended ending :: others, last)

theorem length_serveSlots (slots : List Slot) (s : σ) :
    (g.serveSlots caller slots s).1.length = slots.length := by
  induction slots generalizing s with
  | nil => rfl
  | cons slot rest ih =>
    rw [serveSlots]
    split <;> simp [ih]

theorem serveSlots_append (first second : List Slot) (s : σ) :
    g.serveSlots caller (first ++ second) s =
      ((g.serveSlots caller first s).1 ++
          (g.serveSlots caller second (g.serveSlots caller first s).2).1,
        (g.serveSlots caller second (g.serveSlots caller first s).2).2) := by
  induction first generalizing s with
  | nil => rfl
  | cons slot rest ih =>
    rw [List.cons_append, serveSlots, serveSlots]
    split <;> simp [ih]

/-- A slot ends as its back-end does in the state that the slots before it leave. -/
theorem getElem?_serveSlots {slots : List Slot} {slot : Slot} (s : σ)
    (at_i : slots[i]? = some slot) : (g.serveSlots caller slots s).1[i]? =
      some ((slot.backend? g).elim .waiting fun b =>
        .ended (b.1 caller b.2 (g.serveSlots caller (slots.take i) s).2).1) := by
  obtain ⟨inside, rfl⟩ := List.getElem?_eq_some_iff.mp at_i
  have parts : slots = slots.take i ++ slots[i] :: slots.drop (i + 1) := by simp
  have whole := @serveSlots_append σ g caller (slots.take i) (slots[i] :: slots.drop (i + 1)) s
  rw [← parts] at whole
  have length : (g.serveSlots caller (slots.take i) s).1.length = i := by
    rw [length_serveSlots, List.length_take]
    omega
  rw [whole, List.getElem?_append_right (by omega), length, Nat.sub_self, serveSlots]
  cases slots[i].backend? g <;> rfl

/-! ### The last exchange -/

theorem Exchange.start_finish {ending : Ending} (asks : (x.request? i).isSome = true)
    (waiting : x.progress? i = some .waiting) :
    (x.start i).finish i ending = { x with progress := x.progress.set i (.ended ending) } := by
  have running := x.progress?_start_self asks waiting
  rw [finish, if_pos (by simp [isRunning, running]), start, if_pos ⟨asks, waiting⟩]
  simp [List.set_set]

theorem modify_last (before : List Exchange) (x : Exchange) (f : Exchange → Exchange) :
    (before ++ [x]).modify before.length f = before ++ [f x] := by
  rw [List.modify_eq_take_cons_drop (by simp)]
  simp

theorem Traffic.change_last (sessions : Session.Registry) (before : List Exchange) (x : Exchange)
    (f : Exchange → Exchange) : (⟨sessions, before ++ [x]⟩ : Traffic).change before.length f =
      ⟨sessions, before ++ [f x]⟩ := by
  rw [change, modify_last]

variable {sessions : Session.Registry} {before : List Exchange} {s : σ}

theorem exchange?_last :
    (⟨sessions, before ++ [x]⟩ : Traffic).exchange? before.length = some x := by
  simp [Traffic.exchange?]

/-- Serving a slot of the last exchange that waits. -/
theorem serve_last (waiting : x.progress? i = some .waiting) :
    g.serve before.length ⟨⟨sessions, before ++ [x]⟩, s⟩ i =
      (x.plan.slots[i]?.bind (Slot.backend? g)).elim ⟨⟨sessions, before ++ [x]⟩, s⟩ fun b =>
        ⟨⟨sessions, before ++
          [{ x with progress := x.progress.set i (.ended (b.1 x.caller b.2 s).1) }]⟩,
          (b.1 x.caller b.2 s).2⟩ := by
  have asks : x.plan.slots[i]?.bind (Slot.backend? g) =
      (x.request? i).bind fun r => (g.backend? r.contextVersion).map (·, r) := by
    rw [Exchange.request?, Option.bind_assoc]
    rfl
  rw [asks]
  cases request : x.request? i with
  | none => simp [serve, exchange?_last, request]
  | some r =>
    rw [Option.bind_some]
    cases backend : g.backend? r.contextVersion with
    | none => simp [serve, exchange?_last, request, backend]
    | some b =>
      have ended (ending) : (x.start i).finish i ending =
          { x with progress := x.progress.set i (.ended ending) } :=
        x.start_finish (by simp [request]) waiting
      simp only [serve, exchange?_last, request, backend, Option.map_some, Option.elim_some,
        Traffic.run_cons, Traffic.run_nil, Traffic.step, Traffic.change_last, ended]

/-- Serving the slots of the last exchange from some place on. -/
theorem foldl_serve_last {done : List Progress} {first slots : List Slot}
    (plan : x.plan.slots = first ++ slots) (length : done.length = first.length)
    (progress : x.progress = done ++ slots.map fun _ => .waiting) :
    (List.range' first.length slots.length).foldl (g.serve before.length)
        ⟨⟨sessions, before ++ [x]⟩, s⟩ =
      ⟨⟨sessions, before ++
        [{ x with progress := done ++ (g.serveSlots x.caller slots s).1 }]⟩,
        (g.serveSlots x.caller slots s).2⟩ := by
  induction slots generalizing x done first s with
  | nil =>
    have same : x.progress = done := by simpa using progress
    simp [serveSlots, ← same]
  | cons slot rest ih =>
    have here : x.plan.slots[first.length]? = some slot := by simp [plan]
    have waiting : x.progress? first.length = some .waiting := by
      simp [Exchange.progress?, progress, ← length]
    rw [List.length_cons, List.range'_succ, List.foldl_cons, serve_last waiting, here,
      Option.bind_some, serveSlots]
    have moved : x.plan.slots = (first ++ [slot]) ++ rest := by simp [plan]
    have later : first.length + 1 = (first ++ [slot]).length := by simp
    cases found : slot.backend? g with
    | none =>
      have still : x.progress = (done ++ [.waiting]) ++ rest.map fun _ => .waiting := by
        simp [progress]
      rw [Option.elim_none, later, ih moved (by simp [length]) still]
      simp
    | some b =>
      obtain ⟨backend, r⟩ := b
      have still : x.progress.set first.length (.ended (backend x.caller r s).1) =
          (done ++ [.ended (backend x.caller r s).1]) ++ rest.map fun _ => .waiting := by
        simp [progress, ← length]
      have others := ih (s := (backend x.caller r s).2)
        (x := { x with
          progress := x.progress.set first.length (.ended (backend x.caller r s).1) })
        moved (by simp [length]) still
      rw [Option.elim_some, later]
      exact others.trans (by simp)

/-! ### The whole body -/

/-- An exchange all of whose back-ends have run. -/
def Exchange.served (g : Gateway σ) (x : Exchange) (s : σ) : Exchange :=
  { x with progress := (g.serveSlots x.caller x.plan.slots s).1 }

@[simp] theorem Exchange.served_caller : (x.served g s).caller = x.caller := rfl

@[simp] theorem Exchange.served_plan : (x.served g s).plan = x.plan := rfl

@[simp] theorem Exchange.served_guard : (x.served g s).guard = x.guard := rfl

@[simp] theorem Exchange.served_stage : (x.served g s).stage = x.stage := rfl

def opening (g : Gateway σ) (sessions : Session.Registry) (caller : Caller) (body : Option Bytes)
    (now : Time.Instant) : Exchange :=
  match sessions.acquire caller.session now g.ttl with
  | .admitted _ => .admitted caller (.ofBody g.terms.serves body)
  | .busy => .busy caller
  | .overflow => .aborted caller

/-- An exchange after its reply, if it is one that replies. -/
def Exchange.conclude (x : Exchange) (node : String) (salt : Nat → String) : Exchange :=
  if x.stage = .underway then x.answer node salt else x

/-- Every slot with a request for a back-end has one. -/
theorem isSome_backend? {slot : Slot} {serves : String → Bool} (same : serves = g.terms.serves)
    (member : slot ∈ (Plan.ofBody serves body).slots) {r : Request}
    (asks : slot.request? = some r) : slot.backend? g = (g.backend? r.contextVersion).map (·, r) ∧
      (g.backend? r.contextVersion).isSome = true := by
  refine ⟨by rw [Slot.backend?, asks, Option.bind_some], ?_⟩
  cases body with
  | none => simp [Plan.ofBody, Plan.slots] at member
  | some body =>
    unfold Plan.ofBody at member
    dsimp only at member
    split at member
    · simp [Plan.slots] at member
    · rw [slots_ofEnvelope] at member
      obtain ⟨m, -, rfl⟩ := List.mem_map.mp member
      rw [same] at asks
      exact (request?_ofMember.mp asks).2.2

theorem isReady_served (s : σ) :
    ((Exchange.admitted caller (.ofBody g.terms.serves body)).served g s).isReady = true := by
  refine (Exchange.isReady_iff _).mpr fun i awaited => ?_
  simp only [Exchange.awaits, Option.any_eq_true] at awaited
  obtain ⟨slot, at_i, waits⟩ := awaited
  have at_i : (Plan.ofBody g.terms.serves body).slots[i]? = some slot := at_i
  obtain ⟨r, asks⟩ : ∃ r, slot.request? = some r := by
    cases slot <;> simp_all [Slot.isAwaited, Slot.request?]
  obtain ⟨backend, present⟩ := isSome_backend? rfl (List.mem_of_getElem? at_i) asks
  obtain ⟨b, registered⟩ := Option.isSome_iff_exists.mp present
  have ended := @getElem?_serveSlots σ g caller i _ slot s at_i
  rw [backend, registered] at ended
  simp only [Exchange.ending?, Exchange.progress?]
  rw [show (Exchange.served g (.admitted caller (.ofBody g.terms.serves body)) s).progress =
    (g.serveSlots caller (Plan.ofBody g.terms.serves body).slots s).1 from rfl, ended]
  rfl

/-- The reply of the last exchange, which is ready. -/
theorem reply_last (p : Terms) (underway : x.stage = .underway) (ready : x.isReady = true)
    (salt : Nat → String) :
    (⟨sessions, before ++ [x]⟩ : Traffic).step p (.reply before.length salt) =
      ⟨x.guard.elim sessions (·.drop sessions), before ++ [x.answer p.node salt]⟩ := by
  rw [Traffic.step, Traffic.reply_eq p exchange?_last underway ready, modify_last]

theorem handle_of_arrived {t : Traffic}
    (arrived : t.step g.terms (.arrive caller body now) = ⟨sessions, t.exchanges ++ [x]⟩)
    (waiting : x.progress = x.plan.slots.map fun _ => .waiting) :
    g.handle ⟨t, s⟩ caller body now salt =
      ⟨(⟨sessions, t.exchanges ++ [x.served g s]⟩ : Traffic).step g.terms
        (.reply t.exchanges.length salt), (g.serveSlots x.caller x.plan.slots s).2⟩ := by
  have count : slotCount ⟨⟨sessions, t.exchanges ++ [x]⟩, s⟩ t.exchanges.length =
      x.plan.slots.length := by
    simp [slotCount, exchange?_last]
  have served := @foldl_serve_last σ g x sessions t.exchanges s [] [] x.plan.slots rfl rfl waiting
  simp only [handle, arrived, count, List.range_eq_range']
  rw [List.length_nil] at served
  rw [served]
  rfl

/-- What handling a body comes to. -/
theorem handle_eq (g : Gateway σ) (t : Traffic) (s : σ) (caller : Caller) (body : Option Bytes)
    (now : Time.Instant) (salt : Nat → String) :
    g.handle ⟨t, s⟩ caller body now salt =
      let x := g.opening t.sessions caller body now
      ⟨⟨t.sessions, t.exchanges ++ [(x.served g s).conclude g.node salt]⟩,
        (g.serveSlots caller x.plan.slots s).2⟩ := by
  have arrived : t.step g.terms (.arrive caller body now) = t.arrive g.terms caller body now := rfl
  unfold opening
  cases asked : t.sessions.acquire caller.session now g.ttl with
  | busy =>
    have entered : t.arrive g.terms caller body now =
        ⟨t.sessions, t.exchanges ++ [.busy caller]⟩ := by
      simp only [Traffic.arrive, terms, asked]
    rw [handle_of_arrived (arrived.trans entered) rfl, reply_last g.terms rfl rfl]
    rfl
  | overflow =>
    have entered : t.arrive g.terms caller body now =
        ⟨t.sessions, t.exchanges ++ [.aborted caller]⟩ := by
      simp only [Traffic.arrive, terms, asked]
    rw [handle_of_arrived (arrived.trans entered) rfl]
    simp [Traffic.step, Traffic.reply, exchange?_last, Exchange.aborted, Exchange.conclude,
      Exchange.served]
  | admitted held =>
    have entered : t.arrive g.terms caller body now =
        ⟨held, t.exchanges ++ [.admitted caller (.ofBody g.terms.serves body)]⟩ := by
      simp only [Traffic.arrive, terms, asked]
    rw [handle_of_arrived (arrived.trans entered) rfl, reply_last g.terms rfl (isReady_served s)]
    dsimp only [Exchange.served_guard, Exchange.admitted, Option.elim_some, Session.Guard.drop]
    rw [Session.Registry.release_admitted asked]
    rfl

@[simp] theorem opening_caller (sessions : Session.Registry) :
    (g.opening sessions caller body now).caller = caller := by
  unfold opening
  split <;> rfl

@[simp] theorem Exchange.conclude_caller (node : String) :
    (x.conclude node salt).caller = x.caller := by
  unfold conclude
  split <;> rfl

@[simp] theorem Exchange.conclude_plan (node : String) :
    (x.conclude node salt).plan = x.plan := by
  unfold conclude
  split <;> rfl

@[simp] theorem Exchange.conclude_reply (node : String) :
    (x.conclude node salt).reply node salt = x.reply node salt := by
  unfold conclude
  split <;> rfl

theorem opening_cases (g : Gateway σ) (sessions : Session.Registry) (caller : Caller)
    (body : Option Bytes) (now : Time.Instant) :
    (caller.session ∈ sessions.ids ∧ g.opening sessions caller body now = .busy caller) ∨
    (caller.session ∉ sessions.ids ∧ (∃ expiry, now.add? g.ttl = some expiry) ∧
      g.opening sessions caller body now = .admitted caller (.ofBody g.terms.serves body)) ∨
    (caller.session ∉ sessions.ids ∧ now.add? g.ttl = none ∧
      g.opening sessions caller body now = .aborted caller) := by
  unfold opening
  cases asked : sessions.acquire caller.session now g.ttl with
  | busy => exact .inl ⟨Session.Registry.acquire_busy_iff.mp asked, rfl⟩
  | admitted held =>
    obtain ⟨free, expiry, sum, -⟩ := Session.Registry.acquire_admitted_iff.mp asked
    exact .inr (.inl ⟨free, ⟨expiry, sum⟩, rfl⟩)
  | overflow =>
    obtain ⟨free, late⟩ := Session.Registry.acquire_overflow_iff.mp asked
    exact .inr (.inr ⟨free, Time.Instant.add?_eq_none_iff.mpr late, rfl⟩)

theorem Exchange.outcome?_conclude (node : String) (underway : x.stage = .underway) :
    (x.conclude node salt).outcome? = some (x.plan.status, x.reply node salt) := by
  rw [conclude, if_pos underway]
  rfl

theorem Exchange.outcome?_of_aborted (node : String) (aborted : x.stage = .aborted) :
    (x.conclude node salt).outcome? = none := by
  rw [conclude, if_neg (by simp [aborted]), outcome?, aborted]

/-! ### Back-ends that keep a list -/

variable {ε : Type} {g' : Gateway (σ × List ε)} {adds : Caller → Request → σ → List ε}

/-- The back-ends of the first gateway do what those of the second one do, and add to a list beside
the state what `adds` says. -/
structure Logs (g' : Gateway (σ × List ε)) (g : Gateway σ) (adds : Caller → Request → σ → List ε) :
    Prop where
  node : g'.node = g.node
  ttl : g'.ttl = g.ttl
  registered : ∀ version, (g'.backend? version).isSome = (g.backend? version).isSome
  runs : ∀ r b' b, g'.backend? r.contextVersion = some b' → g.backend? r.contextVersion = some b →
    ∀ caller s log, b' caller r (s, log) =
      ((b caller r s).1, (b caller r s).2, log ++ adds caller r s)

def trail (g : Gateway σ) (adds : Caller → Request → σ → List ε) (caller : Caller) :
    List Slot → σ → List ε
  | [], _ => []
  | slot :: rest, s =>
    match slot.backend? g with
    | none => g.trail adds caller rest s
    | some (backend, r) => adds caller r s ++ g.trail adds caller rest (backend caller r s).2

theorem mem_trail {slots : List Slot} {event : ε} (member : event ∈ g.trail adds caller slots s) :
    ∃ r s, event ∈ adds caller r s := by
  induction slots generalizing s with
  | nil => cases member
  | cons slot rest ih =>
    rw [trail] at member
    split at member
    · exact ih member
    · rcases List.mem_append.mp member with here | later
      · exact ⟨_, _, here⟩
      · exact ih later

theorem Logs.terms_eq (logs : Logs g' g adds) : g'.terms = g.terms := by
  have serves : (fun version => (g'.backend? version).isSome) =
      fun version => (g.backend? version).isSome := funext logs.registered
  rw [terms, terms, logs.node, logs.ttl, serves]

theorem Logs.serveSlots_eq (logs : Logs g' g adds) (caller : Caller) (slots : List Slot) (s : σ)
    (log : List ε) : g'.serveSlots caller slots (s, log) =
      ((g.serveSlots caller slots s).1, (g.serveSlots caller slots s).2,
        log ++ g.trail adds caller slots s) := by
  induction slots generalizing s log with
  | nil => simp [serveSlots, trail]
  | cons slot rest ih =>
    have nowhere (absent : slot.backend? g' = none) (also : slot.backend? g = none) :
        g'.serveSlots caller (slot :: rest) (s, log) =
          ((g.serveSlots caller (slot :: rest) s).1, (g.serveSlots caller (slot :: rest) s).2,
            log ++ g.trail adds caller (slot :: rest) s) := by
      simp [serveSlots, trail, absent, also, ih]
    cases asks : slot.request? with
    | none => exact nowhere (by simp [Slot.backend?, asks]) (by simp [Slot.backend?, asks])
    | some r =>
      have both := logs.registered r.contextVersion
      cases registered : g.backend? r.contextVersion with
      | none =>
        have absent : g'.backend? r.contextVersion = none := by simpa [registered] using both
        exact nowhere (by simp [Slot.backend?, asks, absent])
          (by simp [Slot.backend?, asks, registered])
      | some b =>
        obtain ⟨b', present⟩ : ∃ b', g'.backend? r.contextVersion = some b' :=
          Option.isSome_iff_exists.mp (by simp [both, registered])
        have there : slot.backend? g' = some (b', r) := by simp [Slot.backend?, asks, present]
        have here : slot.backend? g = some (b, r) := by simp [Slot.backend?, asks, registered]
        have runs := logs.runs r b' b present registered caller s log
        simp [serveSlots, trail, there, here, runs, ih]

/-- A gateway whose back-ends keep a list handles a body as it would without. -/
theorem Logs.handle_eq (logs : Logs g' g adds) (t : Traffic) (s : σ) (log : List ε)
    (caller : Caller) (body : Option Bytes) (now : Time.Instant) (salt : Nat → String) :
    g'.handle ⟨t, s, log⟩ caller body now salt =
      let after := g.handle ⟨t, s⟩ caller body now salt
      ⟨after.traffic, after.shared,
        log ++ g.trail adds caller (g.opening t.sessions caller body now).plan.slots s⟩ := by
  have same : g'.opening t.sessions caller body now = g.opening t.sessions caller body now := by
    rw [opening, opening, logs.ttl, logs.terms_eq]
  have served := logs.serveSlots_eq caller (g.opening t.sessions caller body now).plan.slots s log
  rw [Gateway.handle_eq, Gateway.handle_eq, same, logs.node]
  simp only [Exchange.served, opening_caller, served]

end Gateway

/-- A back-end that lists its invocations. -/
def Backend.recorded {σ : Type} (b : Backend σ) : Backend (σ × List (Caller × Rpc.Request)) :=
  fun caller r s =>
    let (ending, last) := b caller r s.1
    (ending, last, s.2 ++ [(caller, r)])

namespace Gateway

variable {σ : Type} {g : Gateway σ}

def map {τ : Type} (f : Backend σ → Backend τ) (g : Gateway σ) : Gateway τ where
  node := g.node
  ttl := g.ttl
  backends := g.backends.map fun b => (b.1, f b.2)

theorem backend?_map {τ : Type} (f : Backend σ → Backend τ) (g : Gateway σ) (version : String) :
    (g.map f).backend? version = (g.backend? version).map f := by
  have lookup (backends : List (String × Backend σ)) :
      (backends.map fun b => (b.1, f b.2)).lookup version =
        (backends.lookup version).map f := by
    induction backends with
    | nil => rfl
    | cons b rest ih =>
      rw [List.map_cons, List.lookup_cons, List.lookup_cons, ih]
      split <;> rfl
  exact lookup g.backends

theorem backend?_register (g : Gateway σ) (version : String) (b : Backend σ) (other : String) :
    (g.register version b).backend? other =
      if other = version then some b else g.backend? other := by
  have lookup (backends : List (String × Backend σ)) (apart : other ≠ version) :
      (backends.filter (·.1 ≠ version)).lookup other = backends.lookup other := by
    induction backends with
    | nil => rfl
    | cons b rest ih =>
      by_cases same : b.1 = version
      · have differs : (other == b.1) = false := by simpa [same] using apart
        rw [List.filter_cons_of_neg (by simp [same]), ih, List.lookup_cons, differs]
      · rw [List.filter_cons_of_pos (by simp [same]), List.lookup_cons, List.lookup_cons, ih]
  rw [backend?, register, List.lookup_cons]
  by_cases same : other = version
  · simp [same]
  · have differs : (other == version) = false := by simpa using same
    rw [differs, if_neg same]
    exact lookup g.backends same

def recorded (g : Gateway σ) : Gateway (σ × List (Caller × Rpc.Request)) := g.map Backend.recorded

theorem logs_recorded (g : Gateway σ) : Logs g.recorded g fun caller r _ => [(caller, r)] where
  node := rfl
  ttl := rfl
  registered version := by rw [recorded, backend?_map, Option.isSome_map]
  runs r b' b present registered caller s log := by
    rw [recorded, backend?_map, registered] at present
    obtain rfl := Option.some.inj present
    rfl

end Gateway

end ScriptGate
