import ScriptGate.Proofs.Gateway.Schedules
import ScriptGate.Proofs.Http.Handling

/-!
# Which check decides an answer

A body on the route passes the checks at the door and each of its members those of the gateway and
of the scripts. The first check that fails decides the answer, and nothing happens after it.
-/

namespace ScriptGate

open Rpc (Envelope)

namespace Http.Server

open Gateway (doorChecks BecomeAll servedIn replyWith)

variable {σ : Type} {v : Server σ} {s : σ} {t : Gateway.Traffic} {r : Request}
  {peer : Option Net.SocketAddress} {now : Time.Instant} {d : Draw}

/-- The answer with a reply, each response of which is stamped for a caller. -/
def answerWith (v : Server σ) (caller : Caller) (d : Draw) (status : Status)
    (reply : Gateway.Reply) : Answer :=
  .of status (reply.stamp v.gateway.node (if caller.minted then some caller.session else none)
    d.salt).encode (some caller.session)

theorem answerOf_underway {x : Gateway.Exchange} (underway : x.stage = .underway) :
    v.answerOf (x.conclude v.gateway.node d.salt) d =
      v.answerWith x.caller d x.plan.status (x.plan.reply x.ending?) :=
  answerOf_conclude (by simp [underway]) (by simp [underway])

theorem answerOf_refused {x : Gateway.Exchange} {status : Status} {error : Rpc.Error}
    (plan : x.plan = .refused status error) (unsent : ∀ reply, x.stage ≠ .replied reply)
    (aborts : x.stage = .aborted → status = internalServerError ∧ error = .internalError) :
    v.answerOf (x.conclude v.gateway.node d.salt) d =
      v.answerWith x.caller d status (.single (.failure .null error)) := by
  rw [answerOf_conclude unsent fun aborted => ?_, Gateway.Exchange.reply, plan]
  · rfl
  · obtain ⟨rfl, rfl⟩ := aborts aborted
    exact plan

/-- What a body on the route comes to: the first check that it fails decides, or its members are
served one after the other. -/
theorem handle_checks (g : Gateway σ) (version : String) (i : Backend.Interpreter σ)
    (route : String) (maxBody : Nat) (t : Gateway.Traffic) (s : σ) (r : Request)
    (peer : Option Net.SocketAddress) (now : Time.Instant) (d : Draw) (here : r.path = route)
    (post : r.method = "POST") :
    let v : Server σ := ⟨g.withScripts version i, route, maxBody⟩
    let seen : Server (σ × List Happening) := ⟨g.watched version i, route, maxBody⟩
    let caller := r.caller peer d.session
    let checks := doorChecks t.sessions caller.session (now.add? g.ttl) (v.bodyOf r)
    ∃ a traffic last events,
      v.handle ⟨t, s⟩ r peer now d = (a, ⟨traffic, last⟩) ∧
      seen.handle ⟨t, s, []⟩ r peer now d = (a, ⟨traffic, last, events⟩) ∧
      ((∃ status error, FirstFailure checks (some (status, error)) ∧ events = [] ∧ last = s ∧
          a = v.answerWith caller d status (.single (.failure .null error))) ∨
        FirstFailure checks none ∧ ∃ bytes e responses, v.bodyOf r = some bytes ∧
          Envelope.parse bytes = .ok e ∧
          BecomeAll g version i caller e.members s events responses last ∧
          a = v.answerWith caller d ok (replyWith e responses) ∧
          events.filterMap Happening.invocation? =
            (servedIn v.gateway.terms.serves e.members).map (caller, ·)) := by
  intro v seen caller checks
  have handled : v.handle ⟨t, s⟩ r peer now d = _ := handle_post here post
  have watched : seen.handle ⟨t, s, []⟩ r peer now d = _ :=
    handle_of_logs (v := v) (g.logs_watched version i) []
  rw [trail, if_pos ⟨here, post⟩, handled, List.nil_append] at watched
  refine ⟨_, _, _, _, handled, watched, ?_⟩
  -- The exchange that the body begins is turned away, or it has a slot for each member.
  have unsent := v.stage_opening t r peer now d
  have called : (v.opening t r peer now d).caller = caller := Gateway.opening_caller ..
  rcases v.gateway.door_cases t.sessions caller (v.bodyOf r) now with
    ⟨status, error, fails, plan, aborts⟩ | ⟨holds, bytes, e, read, parses, nonempty, opened⟩
  · have slots : (v.opening t r peer now d).plan.slots = [] := by
      rw [opening, plan]
      rfl
    refine .inl ⟨status, error, fails, ?_, ?_, ?_⟩
    · rw [slots]
      rfl
    · rw [slots]
      rfl
    · rw [← called]
      exact answerOf_refused (x := (v.opening t r peer now d).served v.gateway s) plan unsent aborts
  · have plan : (v.opening t r peer now d).plan = .ofEnvelope v.gateway.terms.serves e := by
      rw [opening, opened]
      rfl
    have slots : (v.opening t r peer now d).plan.slots =
        e.members.map (Gateway.Slot.ofMember v.gateway.terms.serves) := by
      rw [plan, Gateway.slots_ofEnvelope]
    have become := Gateway.becomeAll_slots g version i caller e.members s
    rw [slots]
    refine .inr ⟨holds, bytes, e, _, read, parses, become, ?_, become.invocations⟩
    have underway : ((v.opening t r peer now d).served v.gateway s).stage = .underway := by
      rw [Gateway.Exchange.served_stage, opening, opened]
      rfl
    have replies := Gateway.reply_served nonempty plan s
    rw [called] at replies
    rw [answerOf_underway underway, Gateway.Exchange.served_plan, replies,
      Gateway.Exchange.served_caller, called, plan, Gateway.status_ofEnvelope nonempty]

/-- The server of a configuration is a server with scripts. -/
theorem ofConfig_eq (c : Config) (tree : FileTree) (seconds : Int) :
    ofConfig c [(Backend.scriptVersion, Backend.scripts tree seconds)] =
      ⟨(⟨c.nodeId, c.sessionTtl, []⟩ : Gateway Engine).withScripts Backend.scriptVersion
        (.ofTree tree seconds), c.route, c.maxBody⟩ := by
  rw [Backend.scripts_eq_over]
  rfl

/-- What a body on the route comes to is decided by the first check that fails, of those at the door
and then of those for each of its members. This is so where back-ends run one after the other, when
all that happens is seen, and where they start and end in any order. -/
theorem first_failure_decides (g : Gateway σ) (version : String) (i : Backend.Interpreter σ)
    (route : String) (maxBody : Nat) (t : Gateway.Traffic) (s : σ) (r : Request)
    (peer : Option Net.SocketAddress) (now : Time.Instant) (d : Draw) (here : r.path = route)
    (post : r.method = "POST") :
    let v : Server σ := ⟨g.withScripts version i, route, maxBody⟩
    let seen : Server (σ × List Happening) := ⟨g.watched version i, route, maxBody⟩
    let caller := r.caller peer d.session
    let checks := doorChecks t.sessions caller.session (now.add? g.ttl) (v.bodyOf r)
    let n := t.exchanges.length
    let arrived := t.step v.gateway.terms (.arrive caller (v.bodyOf r) now)
    (∃ a traffic last events,
      v.handle ⟨t, s⟩ r peer now d = (a, ⟨traffic, last⟩) ∧
      seen.handle ⟨t, s, []⟩ r peer now d = (a, ⟨traffic, last, events⟩) ∧
      ((∃ status error, FirstFailure checks (some (status, error)) ∧ events = [] ∧ last = s ∧
          a = v.answerWith caller d status (.single (.failure .null error))) ∨
        FirstFailure checks none ∧ ∃ bytes e responses, v.bodyOf r = some bytes ∧
          Envelope.parse bytes = .ok e ∧
          BecomeAll g version i caller e.members s events responses last ∧
          a = v.answerWith caller d ok (replyWith e responses) ∧
          events.filterMap Happening.invocation? =
            (servedIn v.gateway.terms.serves e.members).map (caller, ·))) ∧
    (∀ m before events responses after,
      Gateway.Becomes g version i caller m before events responses after →
      (∃ call parts, m = some call ∧ Gateway.Enters g version i call before ∧
        Method.Spells parts call.method ∧
        events.filterMap Happening.call? = [Backend.callOf caller call parts]) ∨
      ((∀ call, m = some call → ¬ Gateway.Enters g version i call before) ∧
        events.filterMap Happening.call? = [])) ∧
    ∀ later, Run.Along (Gateway.Traffic.step v.gateway.terms) (Gateway.Traffic.EndsBy v.gateway)
        arrived later →
      ∃ x, (arrived.run v.gateway.terms later).exchange? n = some x ∧ x.caller = caller ∧
        x.Heeds g version i t.sessions (v.bodyOf r) now ∧
        ∀ j, Gateway.Traffic.timesStarted v.gateway.terms n j arrived later =
          (x.hasBegun j).toNat := by
  intro v seen caller checks n arrived
  have : Nonempty σ := ⟨s⟩
  refine ⟨handle_checks g version i route maxBody t s r peer now d here post,
    fun m before events responses after becomes => becomes.calls, fun later ends => ?_⟩
  obtain ⟨x, found, called, heeds⟩ := Gateway.heeds_run g version i t caller (v.bodyOf r) now ends
  refine ⟨x, found, called, heeds, fun j => ?_⟩
  have begun : (arrived.run v.gateway.terms later).hasBegun n j = x.hasBegun j := by
    rw [Gateway.Traffic.hasBegun, found, Option.any_some]
  rw [← begun]
  exact v.gateway.timesStarted_of_arrived t caller (v.bodyOf r) now later j

/-- A batch whose first call speaks another protocol and whose second one asks for a context that is
not there: back-ends are invoked for the third one and for the notification only. -/
theorem first_failure_decides_of_mixed_batch :
    let i : Backend.Interpreter Unit := ⟨fun _ => "/s", {}, fun _ _ => (none, ())⟩
    let g : Gateway Unit := { node := "n", ttl := .ofSeconds 60, backends := [] }
    let old : Rpc.Request := { jsonrpc := "1.0", id := some (.int 1), contextVersion := "v1" }
    let stray : Rpc.Request := { id := some (.int 2), contextVersion := "v2" }
    let call : Rpc.Request := { id := some (.int 3), method := "f", contextVersion := "v1" }
    let event : Rpc.Request := { method := "g", contextVersion := "v1" }
    let body := Bytes.ofString "[" ++
      List.intercalate [0x2C] [old.encode, stray.encode, call.encode, event.encode] ++
      Bytes.ofString "]"
    let r : Request := { method := "POST", target := "/rpc?x", headers := [], body := some body }
    let now : Time.Instant := ⟨0, 0, by decide, by decide⟩
    let d : Draw := { session := "s", salt := fun _ => "" }
    let caller := r.caller none d.session
    let seen : Server (Unit × List Happening) := ⟨g.watched "v1" i, "/rpc", 1024⟩
    r.path = "/rpc" ∧ r.method = "POST" ∧
      (seen.handle ⟨{}, (), []⟩ r none now d).2.shared.2.filterMap Happening.invocation? =
        [(caller, call), (caller, event)] := by
  intro i g old stray call event body r now d caller seen
  have path : r.path = "/rpc" := by decide +kernel
  have small : body.length ≤ 1024 := by decide +kernel
  have read : (⟨g.withScripts "v1" i, "/rpc", 1024⟩ : Server Unit).bodyOf r = some body :=
    Option.filter_eq_some_iff.mpr ⟨rfl, decide_eq_true small⟩
  have parses : Envelope.parse body =
      .ok (.batch [some old, some stray, some call, some event]) := by
    decide +kernel
  have passes : FirstFailure (doorChecks {} caller.session (now.add? g.ttl) (some body)) none := by
    refine .later (by simp [Session.Registry.ids]) (.later ⟨_, rfl⟩ (.later ⟨_, rfl⟩
      (.later ⟨_, _, rfl, parses⟩ (.later (fun bytes same empty => ?_) .none))))
    obtain rfl := Option.some.inj same
    exact absurd (parses.symm.trans empty) (by simp)
  refine ⟨path, rfl, ?_⟩
  obtain ⟨⟨a, traffic, last, events, -, watched, outcome⟩, -⟩ :=
    first_failure_decides g "v1" i "/rpc" 1024 {} () r none now d path rfl
  rw [read] at outcome
  rw [watched]
  rcases outcome with
    ⟨status, error, fails, -⟩ | ⟨-, bytes, e, responses, same, parses', -, -, calls⟩
  · exact absurd (passes.unique fails) (by simp)
  · obtain rfl := Option.some.inj same
    obtain rfl := Except.ok.inj (parses.symm.trans parses')
    exact calls

end Http.Server

end ScriptGate
