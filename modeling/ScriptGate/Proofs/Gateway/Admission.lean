import ScriptGate.Proofs.Gateway.Steps
import ScriptGate.Proofs.Holding

/-!
# Who holds a session

In a run whose sweeps find no expired hold, the registry and the exchanges in flight tell the same
story: `Accounted` says that the ids of the registry are those of the admitted exchanges that have
yet to reply, and no event breaks it. From it come the single flight of a session, the refusal of
everybody else, and the return of each id exactly once.
-/

namespace ScriptGate.Gateway

open Session

namespace Exchange

/-- The id that an exchange keeps in the registry. -/
def held? (x : Exchange) : Option String :=
  if x.stage = .underway then x.guard.map (·.id) else none

/-- Whether an exchange was given its session and has replied. -/
def hasReturned (x : Exchange) : Bool :=
  match x.stage with
  | .replied _ => x.guard.isSome
  | .underway | .aborted => false

theorem held?_congr {x y : Exchange} (guard : x.guard = y.guard) (stage : x.stage = y.stage) :
    x.held? = y.held? := by simp [held?, guard, stage]

theorem hasReturned_congr {x y : Exchange} (guard : x.guard = y.guard)
    (stage : x.stage = y.stage) : x.hasReturned = y.hasReturned := by
  simp [hasReturned, guard, stage]

theorem held?_answer (x : Exchange) (node : String) (salt : Nat → String) :
    (x.answer node salt).held? = none := by simp [held?, answer]

theorem held?_underway {x : Exchange} (underway : x.stage = .underway) :
    x.held? = x.guard.map (·.id) := by simp [held?, underway]

theorem start_of_empty {x : Exchange} (empty : x.progress = []) (i : Nat) : x.start i = x := by
  simp [start, progress?, empty]

theorem finish_of_empty {x : Exchange} (empty : x.progress = []) (i : Nat) (ending : Ending) :
    x.finish i ending = x := by
  simp [finish, isRunning, progress?, empty]

/-- An exchange that was given its session. -/
structure Admitted (x : Exchange) : Prop where
  guard : x.guard = some ⟨x.caller.session⟩
  stage : x.stage ≠ .aborted
  progress : x.progress.length = x.plan.slots.length

/-- An exchange whose session another one held: it has nothing for a back-end, and its reply is the
busy error without an id. -/
structure TurnedAway (node : String) (x : Exchange) : Prop where
  guard : x.guard = none
  slots : x.plan.slots = []
  progress : x.progress = []
  plan : x.plan = .refused Http.ok .sessionBusy
  stage : x.stage = .underway ∨ ∃ salt, x.stage =
    .replied (.single ((Rpc.Response.failure .null .sessionBusy).stamp node salt x.newSession))

theorem turnedAway_busy (node : String) (caller : Caller) : (busy caller).TurnedAway node :=
  ⟨rfl, rfl, rfl, rfl, .inl rfl⟩

theorem admitted_moves {p : Terms} {n : Nat} {e : Event} {x y : Exchange} (moves : Moves p n e x y)
    (admitted : x.Admitted) : y.Admitted := by
  obtain ⟨guard, stage, progress⟩ := admitted
  cases moves with
  | stay => exact ⟨guard, stage, progress⟩
  | start x i =>
    refine ⟨by simpa using guard, by simpa using stage, ?_⟩
    rw [start_plan, ← progress]
    unfold start
    split <;> simp
  | finish x i ending =>
    refine ⟨by simpa using guard, by simpa using stage, ?_⟩
    rw [finish_plan, ← progress]
    unfold finish
    split <;> simp
  | reply x salt => exact ⟨guard, by simp [answer], progress⟩

theorem turnedAway_moves {p : Terms} {n : Nat} {e : Event} {x y : Exchange}
    (moves : Moves p n e x y) (away : x.TurnedAway p.node) : y.TurnedAway p.node := by
  cases moves with
  | stay => exact away
  | start x i => rw [start_of_empty away.progress]; exact away
  | finish x i ending => rw [finish_of_empty away.progress]; exact away
  | reply x salt =>
    refine ⟨away.guard, away.slots, away.progress, away.plan, .inr ⟨salt 0, ?_⟩⟩
    simp [answer, reply, away.plan, Plan.reply, Reply.stamp, newSession]

theorem aborted_moves {p : Terms} {n : Nat} {e : Event} {caller : Caller} {y : Exchange}
    (moves : Moves p n e (aborted caller) y) : y = aborted caller := by
  cases moves with
  | stay => rfl
  | start _ i => exact start_of_empty (x := aborted caller) rfl i
  | finish _ i ending => exact finish_of_empty (x := aborted caller) rfl i ending
  | reply _ salt underway => exact absurd underway (by simp [aborted])

end Exchange

namespace Traffic

variable {p : Terms} {t : Traffic}

/-- A sweep finds no expired hold. -/
def Timely (t : Traffic) : Event → Prop
  | .sweep now => t.sessions.Unexpired now
  | .arrive .. | .start .. | .finish .. | .reply .. => True

/-- The exchange of a number was given the session of this id and has yet to reply. -/
def InFlight (t : Traffic) (n : Nat) (id : String) : Prop :=
  ∃ x, t.exchange? n = some x ∧ x.guard.isSome ∧ x.stage = .underway ∧ x.caller.session = id

/-- The ids of the registry are those that the exchanges keep in it, and none keeps the id of
another. -/
structure Accounted (t : Traffic) : Prop where
  ids : t.sessions.ids = (t.exchanges.filterMap Exchange.held?).reverse
  nodup : (t.exchanges.filterMap Exchange.held?).Nodup

theorem accounted_empty : Accounted {} := ⟨rfl, by simp⟩

theorem Accounted.mem {id : String} (accounted : t.Accounted) :
    id ∈ t.sessions.ids ↔ ∃ n x, t.exchange? n = some x ∧ x.held? = some id := by
  rw [accounted.ids, List.mem_reverse, List.mem_filterMap]
  simp only [List.mem_iff_getElem?, exchange?]
  constructor
  · rintro ⟨x, ⟨n, found⟩, held⟩
    exact ⟨n, x, found, held⟩
  · rintro ⟨n, x, found, held⟩
    exact ⟨x, ⟨n, found⟩, held⟩

theorem Accounted.unique {n m : Nat} {x y : Exchange} {id : String} (accounted : t.Accounted)
    (first : t.exchange? n = some x) (second : t.exchange? m = some y) (holds : x.held? = some id)
    (also : y.held? = some id) : n = m :=
  Holding.holder_unique accounted.nodup first second holds also

theorem Accounted.congr {s : Traffic} (accounted : t.Accounted) (sessions : s.sessions = t.sessions)
    (kept : s.exchanges.filterMap Exchange.held? = t.exchanges.filterMap Exchange.held?) :
    s.Accounted :=
  ⟨by rw [sessions, kept]; exact accounted.ids, by rw [kept]; exact accounted.nodup⟩

theorem accounted_arrive (accounted : t.Accounted) (caller : Caller) (body : Option Bytes)
    (now : Time.Instant) : (t.arrive p caller body now).Accounted := by
  rcases t.arrive_cases p caller body now with
    ⟨-, equal⟩ | ⟨free, expiry, equal⟩ | ⟨-, -, equal⟩
  · rw [equal]
    exact accounted.congr rfl (by simp [Exchange.held?, Exchange.busy])
  · rw [equal]
    have added : (t.exchanges ++ [Exchange.admitted caller (.ofBody p.serves body)]).filterMap
        Exchange.held? = t.exchanges.filterMap Exchange.held? ++ [caller.session] := by
      simp [Exchange.held?, Exchange.admitted]
    have ids : Registry.ids ⟨t.sessions.entries⟩ = _ := accounted.ids
    rw [accounted.ids, List.mem_reverse] at free
    refine ⟨by rw [added, Registry.ids_cons, ids]; simp, ?_⟩
    rw [added, List.nodup_append]
    refine ⟨accounted.nodup, by simp, ?_⟩
    rintro other member new single rfl
    obtain rfl : other = caller.session := by simpa using single
    exact free member
  · rw [equal]
    exact accounted.congr rfl (by simp [Exchange.held?, Exchange.aborted])

theorem accounted_change (accounted : t.Accounted) (n : Nat) {f : Exchange → Exchange}
    (same : ∀ x, (f x).held? = x.held?) : (t.change n f).Accounted :=
  accounted.congr rfl (Holding.keys_modify_same fun x _ => same x)

theorem accounted_reply (accounted : t.Accounted) (n : Nat) (salt : Nat → String) :
    (t.reply p n salt).Accounted := by
  rcases t.reply_cases p n salt with equal | ⟨x, found, underway, -, equal⟩
  · rw [equal]; exact accounted
  · rw [equal]
    have held := Exchange.held?_underway underway
    cases guard : x.guard with
    | none =>
      refine accounted.congr rfl (Holding.keys_modify_same fun y also => ?_)
      obtain rfl : x = y := Option.some.inj (found.symm.trans also)
      rw [Exchange.held?_answer, held, guard]
      rfl
    | some g =>
      -- No other exchange keeps the id, so the release takes out what this one kept and no more.
      have released : (t.exchanges.modify n (·.answer p.node salt)).filterMap Exchange.held? =
          (t.exchanges.filterMap Exchange.held?).filter (· != g.id) :=
        Holding.keys_modify_released accounted.nodup found (by rw [held, guard]; rfl)
          (x.held?_answer p.node salt)
      refine ⟨?_, ?_⟩
      · simp only [Option.elim_some, Guard.drop, Registry.ids_release, released, accounted.ids,
          List.filter_reverse]
      · rw [released]
        exact accounted.nodup.filter _

/-- No event of a run whose sweeps find no expired hold breaks the account. -/
theorem accounted_step (accounted : t.Accounted) {e : Event} (timely : t.Timely e) :
    (t.step p e).Accounted := by
  cases e with
  | arrive caller body now => exact accounted_arrive accounted caller body now
  | start n i =>
    exact accounted_change accounted n fun x => Exchange.held?_congr (by simp) (by simp)
  | finish n i ending =>
    exact accounted_change accounted n fun x => Exchange.held?_congr (by simp) (by simp)
  | reply n salt => exact accounted_reply accounted n salt
  | sweep now =>
    have same : t.step p (.sweep now) = t := by
      rw [step, Registry.sweep_of_unexpired timely]
    rw [same]
    exact accounted

theorem accounted_run {events : List Event} (accounted : t.Accounted)
    (timely : Run.Along (step p) Timely t events) : (t.run p events).Accounted :=
  Run.run_keeps (P := Accounted) (fun _ _ timely before => accounted_step before timely) timely
    accounted

/-! ### Every exchange was given its session, turned away or stopped at the door -/

theorem exchange_kinds (p : Terms) (events : List Event) {n : Nat} {x : Exchange}
    (found : (run p {} events).exchange? n = some x) :
    x.Admitted ∨ x.TurnedAway p.node ∨ x = .aborted x.caller := by
  have any : Run.Along (step p) (fun _ _ => True) {} events :=
    Run.along_of_mem (fun _ _ _ => trivial) _
  refine exchanges_keep (P := fun x => x.Admitted ∨ x.TurnedAway p.node ∨ x = .aborted x.caller)
    (fun t e x begins => ?_) (fun t e n x y _ _ moves kind => ?_) any found
  · cases begins with
    | admitted => exact .inl ⟨rfl, by simp [Exchange.admitted], by simp [Exchange.admitted]⟩
    | busy caller => exact .inr (.inl (Exchange.turnedAway_busy p.node caller))
    | aborted caller => exact .inr (.inr rfl)
  · rcases kind with admitted | away | aborted
    · exact .inl (Exchange.admitted_moves moves admitted)
    · exact .inr (.inl (Exchange.turnedAway_moves moves away))
    · rw [aborted] at moves
      exact .inr (.inr (by rw [Exchange.aborted_moves moves]; rfl))

theorem inFlight_iff (p : Terms) (events : List Event) {n : Nat} {id : String} :
    (run p {} events).InFlight n id ↔
      ∃ x, (run p {} events).exchange? n = some x ∧ x.held? = some id := by
  refine exists_congr fun x => and_congr_right fun found => ?_
  rcases exchange_kinds p events found with admitted | away | aborted
  · cases stage : x.stage <;> simp [Exchange.held?, admitted.guard, stage]
  · simp [Exchange.held?, away.guard]
  · rw [aborted]
    simp [Exchange.held?, Exchange.aborted]

theorem isBusy_of_inFlight {events : List Event} {n : Nat} {id : String}
    (accounted : (run p {} events).Accounted) (flight : (run p {} events).InFlight n id) :
    (run p {} events).sessions.isBusy id = true := by
  obtain ⟨x, found, held⟩ := (inFlight_iff p events).mp flight
  exact Registry.isBusy_iff.mpr (accounted.mem.mpr ⟨n, x, found, held⟩)

theorem inFlight_unique {events : List Event} {n m : Nat} {id : String}
    (accounted : (run p {} events).Accounted) (first : (run p {} events).InFlight n id)
    (second : (run p {} events).InFlight m id) : n = m := by
  obtain ⟨x, found, held⟩ := (inFlight_iff p events).mp first
  obtain ⟨y, other, holds⟩ := (inFlight_iff p events).mp second
  exact accounted.unique found other held holds

/-! ### How often an id is given back -/

/-- Whether an event takes the id that an exchange keeps out of the registry. -/
def frees (p : Terms) (t : Traffic) (n : Nat) (e : Event) : Bool :=
  (t.exchange? n).any fun x => x.held?.any fun id =>
    t.sessions.isBusy id && !(t.step p e).sessions.isBusy id

def timesFreed (p : Terms) (n : Nat) : Traffic → List Event → Nat
  | _, [] => 0
  | t, e :: rest => (t.frees p n e).toNat + timesFreed p n (t.step p e) rest

def hasReturned (t : Traffic) (n : Nat) : Bool := (t.exchange? n).any Exchange.hasReturned

theorem frees_eq_false (accounted : t.Accounted) {e : Event} (timely : t.Timely e) {n : Nat}
    {x y : Exchange} (before : t.exchange? n = some x) (after : (t.step p e).exchange? n = some y)
    (same : y.held? = x.held?) : t.frees p n e = false := by
  cases held : x.held? with
  | none => simp [frees, before, held]
  | some id =>
    have busy : (t.step p e).sessions.isBusy id = true :=
      Registry.isBusy_iff.mpr ((accounted_step accounted timely).mem.mpr
        ⟨n, y, after, same.trans held⟩)
    simp [frees, before, held, busy]

/-- The reply of an admitted exchange frees its id. -/
theorem not_isBusy_reply {n : Nat} {x : Exchange} {id : String} (found : t.exchange? n = some x)
    (held : x.held? = some id) (ready : x.isReady = true) (salt : Nat → String) :
    (t.step p (.reply n salt)).sessions.isBusy id = false := by
  have underway : x.stage = .underway := by
    by_contra other
    simp [Exchange.held?, other] at held
  rw [Exchange.held?_underway underway] at held
  obtain ⟨g, guard, rfl⟩ := Option.map_eq_some_iff.mp held
  rw [Registry.not_isBusy_iff, step, reply_eq p found underway ready]
  simp [guard, Guard.drop]

/-- An exchange returns with the event that frees its id, and with no other. -/
theorem hasReturned_step (accounted : t.Accounted) {e : Event} (timely : t.Timely e) (n : Nat) :
    ((t.step p e).hasReturned n).toNat = (t.hasReturned n).toNat + (t.frees p n e).toNat := by
  cases before : t.exchange? n with
  | none =>
    have fresh : (t.step p e).hasReturned n = false := by
      cases after : (t.step p e).exchange? n with
      | none => simp [hasReturned, after]
      | some y =>
        rcases exchange?_step after with ⟨x, old, -⟩ | ⟨-, begins⟩
        · exact absurd (before.symm.trans old) (by simp)
        · cases begins <;> simp [hasReturned, after, Exchange.hasReturned, Exchange.admitted,
            Exchange.busy, Exchange.aborted]
    rw [fresh]
    simp [hasReturned, frees, before]
  | some x =>
    obtain ⟨y, after, moves⟩ := moves_step p e before
    have unchanged (guard : y.guard = x.guard) (stage : y.stage = x.stage) :
        ((t.step p e).hasReturned n).toNat =
          (t.hasReturned n).toNat + (t.frees p n e).toNat := by
      have kept := frees_eq_false accounted timely before after (Exchange.held?_congr guard stage)
      simp [hasReturned, before, after, kept, Exchange.hasReturned_congr guard stage]
    cases moves with
    | stay => exact unchanged rfl rfl
    | start x i => exact unchanged (by simp) (by simp)
    | finish x i ending => exact unchanged (by simp) (by simp)
    | reply x salt underway ready =>
      cases guard : x.guard with
      | none =>
        have held : x.held? = none := by simp [Exchange.held?, guard]
        simp [hasReturned, before, after, frees, held, Exchange.hasReturned, Exchange.answer,
          guard, underway]
      | some g =>
        have held : x.held? = some g.id := by simp [Exchange.held?, underway, guard]
        have busy := Registry.isBusy_iff.mpr (accounted.mem.mpr ⟨n, x, before, held⟩)
        have free := not_isBusy_reply (p := p) before held ready salt
        simp [hasReturned, before, after, frees, held, busy, free, Exchange.hasReturned,
          Exchange.answer, guard, underway]

theorem timesFreed_eq (accounted : t.Accounted) {events : List Event}
    (timely : Run.Along (step p) Timely t events) (n : Nat) :
    ((t.run p events).hasReturned n).toNat =
      (t.hasReturned n).toNat + timesFreed p n t events := by
  induction events generalizing t with
  | nil => rfl
  | cons e rest ih =>
    have later := ih (accounted_step accounted timely.1) timely.2
    have now := hasReturned_step (p := p) accounted timely.1 n
    simp only [timesFreed, run_cons] at later ⊢
    omega

/-! ### Every exit -/

/-- The first slots of an exchange, each from start to end. -/
def serving (n : Nat) (endings : Nat → Ending) (count : Nat) : List Event :=
  (List.range count).flatMap fun i => [.start n i, .finish n i (endings i)]

theorem serving_succ (n : Nat) (endings : Nat → Ending) (count : Nat) :
    serving n endings (count + 1) =
      serving n endings count ++ [.start n count, .finish n count (endings count)] := by
  simp [serving, List.range_succ]

/-- Once its slots are served an exchange is ready, whatever endings they came to. -/
theorem served {n : Nat} {x : Exchange} (p : Terms) (found : t.exchange? n = some x)
    (progress : x.progress.length = x.plan.slots.length) (endings : Nat → Ending) (count : Nat) :
    ∃ y, (t.run p (serving n endings count)).exchange? n = some y ∧ y.guard = x.guard ∧
      y.stage = x.stage ∧ y.plan = x.plan ∧ y.progress.length = x.progress.length ∧
      ∀ i < count, x.awaits i = true → (y.ending? i).isSome := by
  induction count with
  | zero => exact ⟨x, found, rfl, rfl, rfl, rfl, fun i below => absurd below (by omega)⟩
  | succ count ih =>
    obtain ⟨y, after, guard, stage, plan, length, ended⟩ := ih
    refine ⟨(y.start count).finish count (endings count), ?_, by simp [guard], by simp [stage],
      by simp [plan], by simp [length], fun i below awaited => ?_⟩
    · rw [serving_succ, run_append]
      simp [step, exchange?_change, after]
    · by_cases last : i = count
      · subst last
        have also : y.awaits i = true := by simpa [Exchange.awaits, plan] using awaited
        refine y.isSome_ending?_serve (endings i) also ?_
        rw [length, progress]
        simp only [Exchange.awaits, Option.any_eq_true] at awaited
        obtain ⟨slot, at_i, -⟩ := awaited
        exact (List.getElem?_eq_some_iff.mp at_i).1
      · have before := ended i (by omega) awaited
        have started : ((y.start count).ending? i).isSome := by
          rw [Exchange.ending?_start _ _ before]; exact before
        rw [Exchange.ending?_finish _ _ _ started]
        exact started

/-- An exchange in flight can be brought to its reply, and its id is free then. -/
theorem returns_when_served {events : List Event} {n : Nat} {x : Exchange} {id : String}
    (found : (run p {} events).exchange? n = some x) (held : x.held? = some id)
    (endings : Nat → Ending) (salt : Nat → String) :
    let after := (run p {} events).run p
      (serving n endings x.plan.slots.length ++ [.reply n salt])
    after.hasReturned n = true ∧ after.sessions.isBusy id = false := by
  have admitted : x.Admitted := by
    rcases exchange_kinds p events found with admitted | away | aborted
    · exact admitted
    · exact absurd held (by simp [Exchange.held?, away.guard])
    · rw [aborted] at held
      exact absurd held (by simp [Exchange.held?, Exchange.aborted])
  obtain ⟨y, served, guard, stage, plan, -, ended⟩ :=
    served p found admitted.progress endings x.plan.slots.length
  have also : y.held? = some id := (Exchange.held?_congr guard stage).trans held
  have ready : y.isReady = true := y.isReady_iff.mpr fun i awaited => by
    have same : x.awaits i = true := by simpa [Exchange.awaits, plan] using awaited
    refine ended i ?_ same
    simp only [Exchange.awaits, Option.any_eq_true] at same
    obtain ⟨slot, at_i, -⟩ := same
    exact (List.getElem?_eq_some_iff.mp at_i).1
  have underway : y.stage = .underway := by
    by_contra other
    simp [Exchange.held?, other] at also
  simp only [run_append, run_cons, run_nil]
  refine ⟨?_, not_isBusy_reply served also ready salt⟩
  simp [hasReturned, exchange?_reply p served underway ready, Exchange.hasReturned,
    Exchange.answer, guard, admitted.guard]

/-! ### The account as a whole -/

/-- The reply of an exchange that was turned away is the busy error, and leaves the registry as it
is. -/
theorem reply_turnedAway {n : Nat} {x : Exchange} (found : t.exchange? n = some x)
    (away : x.TurnedAway p.node) (salt : Nat → String) :
    (t.step p (.reply n salt)).sessions = t.sessions ∧
    (x.stage = .underway → (t.step p (.reply n salt)).exchange? n =
      some { x with stage := .replied (.single
        ((Rpc.Response.failure .null .sessionBusy).stamp p.node (salt 0) x.newSession)) }) := by
  refine ⟨?_, fun underway => ?_⟩
  · rcases t.reply_cases p n salt with equal | ⟨y, also, -, -, equal⟩
    · rw [step, equal]
    · obtain rfl : x = y := Option.some.inj (found.symm.trans also)
      rw [step, equal, away.guard]
      rfl
  · have ready : x.isReady = true := x.isReady_iff.mpr fun i awaited => by
      simp [Exchange.awaits, away.slots] at awaited
    rw [exchange?_reply p found underway ready]
    simp [Exchange.answer, Exchange.reply, away.plan, Plan.reply, Reply.stamp]

/-- An arrival on a held id changes nothing but that it is turned away, whatever its body, and it
stays turned away. -/
theorem turned_away {caller : Caller} (busy : t.sessions.isBusy caller.session = true)
    (body : Option Bytes) (now : Time.Instant) (later : List Event) :
    let after := t.run p (.arrive caller body now :: later)
    (∀ other, after = t.run p (.arrive caller other now :: later)) ∧
    (t.step p (.arrive caller body now)).sessions = t.sessions ∧
    ∃ x, after.exchange? t.exchanges.length = some x ∧ x.caller = caller ∧
      x.TurnedAway p.node := by
  have refused (body : Option Bytes) : t.step p (.arrive caller body now) =
      { t with exchanges := t.exchanges ++ [.busy caller] } := by
    simp [step, arrive, Registry.acquire, busy]
  have found : (t.step p (.arrive caller body now)).exchange? t.exchanges.length =
      some (.busy caller) := by simp [refused, exchange?]
  obtain ⟨x, after, same, away⟩ := moves_run (p := p)
    (P := fun x => x.caller = caller ∧ x.TurnedAway p.node)
    (fun e x y moves kept => ⟨moves.caller.trans kept.1, Exchange.turnedAway_moves moves kept.2⟩)
    found ⟨rfl, Exchange.turnedAway_busy p.node caller⟩ later
  exact ⟨fun other => by simp [refused], by rw [refused], x, after, same, away⟩

/-- At every moment the registry holds the ids of the admitted exchanges that have yet to reply,
each of them held by one. Everybody else is turned away, and an admitted exchange gives its id back
once: when it replies, which it can do as soon as its slots have come to any ending. -/
theorem session_account (p : Terms) (events : List Event)
    (timely : Run.Along (step p) Timely {} events) :
    let t := run p {} events
    (t.sessions.ids.Nodup ∧ (∀ n id, t.InFlight n id → t.sessions.isBusy id = true) ∧
      ∀ id, t.sessions.isBusy id = true → ∃! n, t.InFlight n id) ∧
    (∀ caller body now later, t.sessions.isBusy caller.session = true →
      let after := t.run p (.arrive caller body now :: later)
      (∀ other, after = t.run p (.arrive caller other now :: later)) ∧
      (t.step p (.arrive caller body now)).sessions = t.sessions ∧
      ∃ x, after.exchange? t.exchanges.length = some x ∧ x.caller = caller ∧
        x.TurnedAway p.node) ∧
    (∀ n x salt, t.exchange? n = some x → x.TurnedAway p.node →
      (t.step p (.reply n salt)).sessions = t.sessions ∧
      (x.stage = .underway → (t.step p (.reply n salt)).exchange? n =
        some { x with stage := .replied (.single
          ((Rpc.Response.failure .null .sessionBusy).stamp p.node (salt 0) x.newSession)) })) ∧
    (∀ n, timesFreed p n {} events = if t.hasReturned n then 1 else 0) ∧
    ∀ n x id, t.exchange? n = some x → t.InFlight n id → ∀ endings salt,
      let after := t.run p (serving n endings x.plan.slots.length ++ [.reply n salt])
      after.hasReturned n = true ∧ after.sessions.isBusy id = false := by
  have accounted : (run p {} events).Accounted := accounted_run accounted_empty timely
  refine ⟨⟨?_, fun n id flight => isBusy_of_inFlight accounted flight, fun id busy => ?_⟩,
    fun caller body now later busy => turned_away busy body now later,
    fun n x salt found away => reply_turnedAway found away salt,
    fun n => ?_, fun n x id found flight endings salt => ?_⟩
  · rw [accounted.ids]
    exact List.nodup_reverse.mpr accounted.nodup
  · obtain ⟨n, x, found, held⟩ := accounted.mem.mp (Registry.isBusy_iff.mp busy)
    have flight := (inFlight_iff p events).mpr ⟨x, found, held⟩
    exact ⟨n, flight, fun m also => inFlight_unique accounted also flight⟩
  · have count := timesFreed_eq (p := p) accounted_empty timely n
    have none_yet : hasReturned {} n = false := by simp [hasReturned, exchange?]
    rw [none_yet] at count
    cases returned : (run p {} events).hasReturned n <;> simp [returned] at count ⊢ <;> omega
  · obtain ⟨y, also, held⟩ := (inFlight_iff p events).mp flight
    obtain rfl : x = y := Option.some.inj (found.symm.trans also)
    exact returns_when_served found held endings salt

/-- Two bodies that cannot be read arrive on one session: the first one gives it back, and the
second one, which was turned away, does not. -/
theorem session_account_of_two_arrivals :
    let p : Terms := { node := "n", ttl := .ofSeconds 60, serves := fun _ => true }
    let now : Time.Instant := ⟨0, 0, by decide, by decide⟩
    let caller : Caller := { session := "s" }
    let events : List Event := [.arrive caller none now, .arrive caller none now, .sweep now,
      .reply 1 fun _ => "", .reply 0 fun _ => ""]
    timesFreed p 0 {} events = 1 ∧ timesFreed p 1 {} events = 0 := by
  intro p now caller events
  have timely : Run.Along (step p) Timely {} events := by
    refine ⟨trivial, trivial, ?_, trivial, trivial, trivial⟩
    show ∀ entry ∈ _, _
    decide +kernel
  have counts := (session_account p events timely).2.2.2.1
  rw [counts 0, counts 1]
  decide +kernel

end Traffic

end ScriptGate.Gateway
