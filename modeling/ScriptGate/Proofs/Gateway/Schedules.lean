import ScriptGate.Proofs.Gateway.Serving

/-!
# A body in any order of events

The back-ends of a body start and end in any order, in between those of other bodies. `Governed` is
what a run keeps of the exchange for a body: no back-end starts but those of its members, each ends
as its back-end does in some state, and a reply is that to these endings. `timesStarted` counts how
often a back-end starts.
-/

namespace ScriptGate.Gateway

open Rpc (Request Response Envelope isAsked)

def Exchange.hasBegun (x : Exchange) (i : Nat) : Bool := (x.progress? i).any (· ≠ .waiting)

theorem Exchange.hasBegun_iff {x : Exchange} {i : Nat} : x.hasBegun i = true ↔
    ∃ progress, x.progress? i = some progress ∧ progress ≠ .waiting := by
  simp [hasBegun, Option.any_eq_true]

theorem Exchange.hasBegun_of_ending? {x : Exchange} {i : Nat}
    (ended : (x.ending? i).isSome = true) : x.hasBegun i = true := by
  obtain ⟨ending, ended⟩ := Option.isSome_iff_exists.mp ended
  obtain ⟨progress, stands, ended⟩ := Option.bind_eq_some_iff.mp ended
  refine hasBegun_iff.mpr ⟨progress, stands, ?_⟩
  rintro rfl
  simp [Progress.ending?] at ended

theorem Moves.hasBegun {p : Terms} {n : Nat} {e : Event} {x y : Exchange} (moves : Moves p n e x y)
    {i : Nat} (begun : x.hasBegun i = true) : y.hasBegun i = true := by
  rcases moves.progress? i with same | ⟨-, waiting, -⟩ | ⟨ending, -, -, ended⟩
  · simpa [Exchange.hasBegun, same] using begun
  · simp [Exchange.hasBegun, waiting] at begun
  · simp [Exchange.hasBegun, ended]

/-! ### How often a back-end starts -/

namespace Traffic

variable {p : Terms} {t : Traffic}

def hasBegun (t : Traffic) (n i : Nat) : Bool := (t.exchange? n).any (·.hasBegun i)

def starts (p : Terms) (t : Traffic) (n i : Nat) (e : Event) : Bool :=
  !t.hasBegun n i && (t.step p e).hasBegun n i

def timesStarted (p : Terms) (n i : Nat) : Traffic → List Event → Nat
  | _, [] => 0
  | t, e :: rest => (t.starts p n i e).toNat + timesStarted p n i (t.step p e) rest

theorem timesStarted_eq {n : Nat} {x : Exchange} (found : t.exchange? n = some x) (i : Nat)
    (events : List Event) : ((t.run p events).hasBegun n i).toNat =
      (t.hasBegun n i).toNat + timesStarted p n i t events := by
  induction events generalizing t x with
  | nil => rfl
  | cons e rest ih =>
    obtain ⟨y, after, moves⟩ := moves_step p e found
    -- What has begun stays so, so the count grows with the first event alone that starts the slot.
    have now : ((t.step p e).hasBegun n i).toNat =
        (t.hasBegun n i).toNat + (t.starts p n i e).toNat := by
      have kept := moves.hasBegun (i := i)
      simp only [starts, hasBegun, found, after, Option.any_some]
      cases begun : x.hasBegun i with
      | true => simp [kept begun]
      | false => simp
    have later := ih after
    simp only [timesStarted, run_cons] at later ⊢
    omega

end Traffic

/-! ### What a run keeps -/

variable {σ : Type} {g : Gateway σ} {caller : Caller} {plan : Plan} {x : Exchange}

/-- What a run keeps of the exchange that a body begins. -/
structure Exchange.Governed (g : Gateway σ) (caller : Caller) (plan : Plan) (x : Exchange) :
    Prop where
  caller : x.caller = caller
  plan : x.plan = plan
  begun : ∀ i progress, x.progress? i = some progress → progress ≠ .waiting →
    (x.request? i).isSome = true
  ended : ∀ i ending r, x.ending? i = some ending → x.request? i = some r →
    ∃ b s, g.backend? r.contextVersion = some b ∧ ending = (b x.caller r s).1
  stage : (∀ reply, x.stage ≠ .replied reply) ∨ x.Sent g.node

namespace Exchange

theorem progress?_opening {sessions : Session.Registry} {body : Option Bytes} {now : Time.Instant}
    {i : Nat} {progress : Progress}
    (stands : (g.opening sessions caller body now).progress? i = some progress) :
    progress = .waiting := by
  have waiting : (g.opening sessions caller body now).progress =
      (g.opening sessions caller body now).plan.slots.map fun _ => .waiting := by
    rcases g.opening_cases sessions caller body now with
      ⟨-, opened⟩ | ⟨-, -, opened⟩ | ⟨-, -, opened⟩
    all_goals rw [opened]; rfl
  rw [Exchange.progress?, waiting, List.getElem?_map] at stands
  obtain ⟨-, -, rfl⟩ := Option.map_eq_some_iff.mp stands
  rfl

theorem hasBegun_opening (g : Gateway σ) (sessions : Session.Registry) (caller : Caller)
    (body : Option Bytes) (now : Time.Instant) (i : Nat) :
    (g.opening sessions caller body now).hasBegun i = false := by
  refine Bool.eq_false_iff.mpr fun begun => ?_
  obtain ⟨progress, stands, moved⟩ := hasBegun_iff.mp begun
  exact moved (progress?_opening stands)

theorem governed_opening (g : Gateway σ) (sessions : Session.Registry) (caller : Caller)
    (body : Option Bytes) (now : Time.Instant) :
    let x := g.opening sessions caller body now
    x.Governed g caller x.plan := by
  intro x
  refine ⟨opening_caller sessions, rfl, ?_, ?_, .inl ?_⟩
  · exact fun i progress stands moved => absurd (progress?_opening stands) moved
  · intro i ending r ended
    obtain ⟨progress, stands, ended⟩ := Option.bind_eq_some_iff.mp ended
    obtain rfl := progress?_opening stands
    simp [Progress.ending?] at ended
  · rcases g.opening_cases sessions caller body now with
      ⟨-, opened⟩ | ⟨-, -, opened⟩ | ⟨-, -, opened⟩
    all_goals simp [x, opened, busy, admitted, aborted]

theorem Governed.moves {t : Traffic} {event : Event} {n : Nat} {y : Exchange}
    (ends : t.EndsBy g event) (found : t.exchange? n = some x)
    (moves : Moves g.terms n event x y) (governed : x.Governed g caller plan) :
    y.Governed g caller plan where
  caller := moves.caller.trans governed.caller
  plan := moves.plan.trans governed.plan
  begun := moves.begun governed.begun
  ended := fun i ending r ended asks => by
    rw [moves.request?] at asks
    rw [moves.caller]
    rcases moves.ending?_cases ended with before | rfl
    · exact governed.ended i ending r before asks
    · exact ends x r found asks
  stage := by
    rcases governed.stage with unsent | sent
    · rcases moves.stage with same | sent
      · exact .inl (same ▸ unsent)
      · exact .inr sent
    · exact .inr (moves.sent sent)

theorem Governed.request?_of_hasBegun (governed : x.Governed g caller plan) {i : Nat}
    (begun : x.hasBegun i = true) : ∃ r, plan.slots[i]?.bind Slot.request? = some r := by
  obtain ⟨progress, stands, moved⟩ := hasBegun_iff.mp begun
  rw [← governed.plan]
  exact Option.isSome_iff_exists.mp (governed.begun i progress stands moved)

/-- A reply that has gone out answers the plan by the endings. -/
theorem Governed.reply (governed : x.Governed g caller plan) {reply : Reply}
    (replied : x.stage = .replied reply) : x.isReady = true ∧
      ∃ salt, reply = (plan.reply x.ending?).stamp g.node x.newSession salt := by
  rcases governed.stage with unsent | ⟨ready, salt, also⟩
  · exact absurd replied (unsent reply)
  · obtain rfl := Stage.replied.inj (replied.symm.trans also)
    exact ⟨ready, salt, by rw [Exchange.reply, governed.plan]⟩

end Exchange

theorem exchange?_opening (g : Gateway σ) (t : Traffic) (caller : Caller) (body : Option Bytes)
    (now : Time.Instant) : (t.step g.terms (.arrive caller body now)).exchange? t.exchanges.length =
      some (g.opening t.sessions caller body now) := by
  have ttl : g.terms.ttl = g.ttl := rfl
  rw [Traffic.step, Traffic.arrive, opening, ttl]
  cases t.sessions.acquire caller.session now g.ttl <;> simp [Traffic.exchange?]

theorem governed_run (t : Traffic) (caller : Caller) (body : Option Bytes) (now : Time.Instant)
    {later : List Event} (ends : Run.Along (Traffic.step g.terms) (Traffic.EndsBy g)
      (t.step g.terms (.arrive caller body now)) later) :
    ∃ x, ((t.step g.terms (.arrive caller body now)).run g.terms later).exchange?
        t.exchanges.length = some x ∧
      x.Governed g caller (g.opening t.sessions caller body now).plan :=
  Traffic.moves_along
    (fun _ _ _ _ ends found moves governed => governed.moves ends found moves)
    (exchange?_opening g t caller body now) (Exchange.governed_opening ..) ends

/-! ### The members of a body -/

variable {version : String} {i : Backend.Interpreter σ} {e : Envelope}

theorem Exchange.Governed.served_of_hasBegun
    (governed : x.Governed g caller (.ofEnvelope g.terms.serves e)) {j : Nat}
    (begun : x.hasBegun j = true) :
    ∃ r, e.members[j]? = some (some r) ∧ Served g.terms.serves r := by
  obtain ⟨r, asks⟩ := governed.request?_of_hasBegun begun
  rw [slots_ofEnvelope, List.getElem?_map, Option.bind_map] at asks
  obtain ⟨m, at_j, asks⟩ := Option.bind_eq_some_iff.mp asks
  obtain ⟨rfl, served⟩ := request?_ofMember.mp asks
  exact ⟨r, at_j, served⟩

theorem Exchange.Governed.isSome_ending?
    (governed : x.Governed g caller (.ofEnvelope g.terms.serves e)) (ready : x.isReady = true)
    {j : Nat} {m : Option Request} (at_j : e.members[j]? = some m)
    (awaited : (Slot.ofMember g.terms.serves m).isAwaited = true) :
    (x.ending? j).isSome = true := by
  refine x.isReady_iff.mp ready j ?_
  rw [awaits, governed.plan, slots_ofEnvelope, List.getElem?_map, at_j]
  exact awaited

theorem Exchange.Governed.hasBegun_of_served
    (governed : x.Governed g caller (.ofEnvelope g.terms.serves e)) (ready : x.isReady = true)
    {j : Nat} {r : Request} {id : Json} (at_j : e.members[j]? = some (some r))
    (present : r.id = some id) (served : Served g.terms.serves r) : x.hasBegun j = true :=
  hasBegun_of_ending?
    (governed.isSome_ending? ready at_j (isAwaited_ofMember.mpr ⟨r, id, rfl, present, served⟩))

/-- A member that is answered becomes what its response says, in some state. -/
theorem Exchange.Governed.becomes [Nonempty σ]
    (governed : x.Governed (g.withScripts version i) caller
      (.ofEnvelope (g.withScripts version i).terms.serves e))
    (ready : x.isReady = true) {m : Option Request} {j : Nat} (at_j : e.members[j]? = some m)
    (asked : isAsked m = true) :
    ∃ response, (Slot.ofMember (g.withScripts version i).terms.serves m).response? (x.ending? j) =
        some response ∧
      ∃ s events last, Becomes g version i caller m s events [response] last := by
  let all := g.withScripts version i
  have ended : (Slot.ofMember all.terms.serves m).isAwaited = true →
      (x.ending? j).isSome = true := governed.isSome_ending? ready at_j
  obtain ⟨response, goes_out, -⟩ := response?_of_isAsked asked ended
  refine ⟨response, goes_out, ?_⟩
  have becomes (s : σ) := becomes_slot g version i caller m s
  dsimp only at becomes
  -- The response is the one that goes out if the back-end of the slot ran in some state alone.
  obtain ⟨s, same⟩ : ∃ s, (Slot.ofMember all.terms.serves m).response?
      (((Slot.ofMember all.terms.serves m).backend? all).map fun b => (b.1 caller b.2 s).1) =
        some response := by
    rw [← goes_out]
    cases waits : (Slot.ofMember all.terms.serves m).isAwaited with
    | false => exact ⟨Classical.ofNonempty, Slot.response?_congr fun awaited => by simp_all⟩
    | true =>
      obtain ⟨r, id, rfl, present, served⟩ := isAwaited_ofMember.mp waits
      obtain ⟨ending, ended⟩ := Option.isSome_iff_exists.mp (ended waits)
      have asks : (Slot.ofMember all.terms.serves (some r)).request? = some r :=
        request?_ofMember.mpr ⟨rfl, served⟩
      have requested : x.request? j = some r := by
        rw [Exchange.request?, governed.plan, slots_ofEnvelope, List.getElem?_map, at_j]
        exact asks
      obtain ⟨b, s, registered, rfl⟩ := governed.ended j ending r ended requested
      refine ⟨s, ?_⟩
      rw [ended, Slot.backend?, asks, Option.bind_some, registered, governed.caller]
      rfl
  have becomes := becomes s
  rw [same] at becomes
  exact ⟨s, _, _, becomes⟩

/-- The responses of a reply to a body are those that its members become, in their order. -/
theorem Exchange.Governed.responses [Nonempty σ]
    (governed : x.Governed (g.withScripts version i) caller
      (.ofEnvelope (g.withScripts version i).terms.serves e))
    (ready : x.isReady = true) (nonempty : e ≠ .batch []) :
    ∃ responses, (Plan.ofEnvelope (g.withScripts version i).terms.serves e).reply x.ending? =
        replyWith e responses ∧
      List.Forall₂
        (fun m response => ∃ s events last, Becomes g version i caller m.1 s events [response] last)
        e.asked responses := by
  refine ⟨_, reply_ofEnvelope nonempty x.ending?, ?_⟩
  rw [List.zipIdx_map, List.filterMap_map]
  refine forall₂_filter_filterMap ?_ ?_
  · rintro ⟨m, j⟩ inside asked
    exact governed.becomes ready (List.mk_mem_zipIdx_iff_getElem?.mp inside) asked
  · rintro ⟨m, j⟩ - silent
    exact response?_of_notification silent (x.ending? j)

/-- Where the exchange for a body stands. It is turned away by the first check at the door that it
fails, and nothing has started. Or no check fails, back-ends start for members that are served only,
for all calls among these before the reply goes out, and the responses of the reply are those that
the members become. -/
inductive Exchange.Heeds (g : Gateway σ) (version : String) (i : Backend.Interpreter σ)
    (sessions : Session.Registry) (body : Option Bytes) (now : Time.Instant) (x : Exchange) :
    Prop where
  | turnedAway {status : Http.Status} {error : Rpc.Error} :
      FirstFailure (doorChecks sessions x.caller.session (now.add? g.ttl) body)
        (some (status, error)) →
      (∀ j, x.hasBegun j = false) →
      (∀ reply, x.stage = .replied reply → x.plan.status = status ∧
        ∃ salt, reply = (Reply.single (.failure .null error)).stamp g.node x.newSession salt) →
      x.Heeds g version i sessions body now
  | served {bytes : Bytes} {e : Envelope} :
      FirstFailure (doorChecks sessions x.caller.session (now.add? g.ttl) body) none →
      body = some bytes → Envelope.parse bytes = .ok e →
      (∀ j, x.hasBegun j = true → ∃ r, e.members[j]? = some (some r) ∧
        FirstFailure (gateChecks (g.withScripts version i).terms.serves r) none) →
      (∀ reply, x.stage = .replied reply → x.plan.status = Http.ok ∧
        (∀ j r id, e.members[j]? = some (some r) → r.id = some id →
          FirstFailure (gateChecks (g.withScripts version i).terms.serves r) none →
          x.hasBegun j = true) ∧
        ∃ responses salt, reply = (replyWith e responses).stamp g.node x.newSession salt ∧
          List.Forall₂ (fun m response =>
            ∃ s events last, Becomes g version i x.caller m.1 s events [response] last)
            e.asked responses) →
      x.Heeds g version i sessions body now

theorem heeds_run [Nonempty σ] (g : Gateway σ) (version : String) (i : Backend.Interpreter σ)
    (t : Traffic) (caller : Caller) (body : Option Bytes) (now : Time.Instant) {later : List Event}
    (ends : Run.Along (Traffic.step (g.withScripts version i).terms)
      (Traffic.EndsBy (g.withScripts version i))
      (t.step (g.withScripts version i).terms (.arrive caller body now)) later) :
    let all := g.withScripts version i
    let arrived := t.step all.terms (.arrive caller body now)
    ∃ x, (arrived.run all.terms later).exchange? t.exchanges.length = some x ∧
      x.caller = caller ∧ x.Heeds g version i t.sessions body now := by
  intro all arrived
  obtain ⟨x, found, governed⟩ := governed_run t caller body now ends
  refine ⟨x, found, governed.caller, ?_⟩
  obtain rfl := governed.caller
  rcases all.door_cases t.sessions x.caller body now with
    ⟨status, error, fails, plan, -⟩ | ⟨holds, bytes, e, read, parses, nonempty, opened⟩
  · rw [plan] at governed
    refine .turnedAway fails (fun j => Bool.eq_false_iff.mpr fun begun => ?_)
      fun reply replied => ?_
    · obtain ⟨r, asks⟩ := governed.request?_of_hasBegun begun
      simp [Plan.slots] at asks
    · obtain ⟨-, salt, sent⟩ := governed.reply replied
      exact ⟨by rw [governed.plan]; rfl, salt, sent⟩
  · have plan : (all.opening t.sessions x.caller body now).plan =
        .ofEnvelope all.terms.serves e := congrArg Exchange.plan opened
    rw [plan] at governed
    refine .served holds read parses (fun j begun => ?_) fun reply replied => ?_
    · obtain ⟨r, at_j, served⟩ := governed.served_of_hasBegun begun
      exact ⟨r, at_j, firstFailure_gateChecks served⟩
    · obtain ⟨ready, salt, sent⟩ := governed.reply replied
      obtain ⟨responses, answers, become⟩ := governed.responses ready nonempty
      refine ⟨?_, fun j r id at_j present passes => ?_, responses, salt, ?_, become⟩
      · rw [governed.plan, status_ofEnvelope nonempty]
      · exact governed.hasBegun_of_served ready at_j present (served_of_firstFailure passes)
      · rw [sent, answers]
        rfl

/-- From the arrival of a body on a back-end has been started once for each slot that has begun. -/
theorem timesStarted_of_arrived (g : Gateway σ) (t : Traffic) (caller : Caller)
    (body : Option Bytes) (now : Time.Instant) (later : List Event) (j : Nat) :
    let arrived := t.step g.terms (.arrive caller body now)
    Traffic.timesStarted g.terms t.exchanges.length j arrived later =
      ((arrived.run g.terms later).hasBegun t.exchanges.length j).toNat := by
  intro arrived
  have opened := exchange?_opening g t caller body now
  have none_yet : arrived.hasBegun t.exchanges.length j = false := by
    rw [Traffic.hasBegun, opened, Option.any_some]
    exact Exchange.hasBegun_opening ..
  have count : ((arrived.run g.terms later).hasBegun t.exchanges.length j).toNat =
      (arrived.hasBegun t.exchanges.length j).toNat +
        Traffic.timesStarted g.terms t.exchanges.length j arrived later :=
    Traffic.timesStarted_eq opened j later
  rw [count, none_yet]
  exact (Nat.zero_add _).symm

end ScriptGate.Gateway
