import ScriptGate.Proofs.Gateway.Steps
import ScriptGate.Proofs.Guest.Host
import ScriptGate.Proofs.Rpc.Envelope
import ScriptGate.Proofs.Rpc.Response

/-!
# Responses that clients can check

The ids of responses come out of bodies and their values out of declarations, so every response of
every reply fits. A client reads it back but for null data of its error, and nothing else can make
its stamp fail.
-/

namespace ScriptGate

/-! ### Responses with a stamp -/

namespace Rpc

def Response.IsStamped (r : Response) : Prop :=
  ∃ s : Response, s.Fits ∧ ∃ node salt newSession, r = s.stamp node salt newSession

/-- What a client makes of a stamped response. -/
theorem Response.IsStamped.arrives {r : Response} (stamped : r.IsStamped)
    (floats : ∀ x finite, Json.Number.float x finite ∈ r.numbers →
      (Json.Number.float x finite).ReadsBack) :
    decode r.encode = .ok r.onWire ∧
      (r.onWire.verify = true ↔
        (r.hasNullData = true → checksum r.onWire.payload = checksum r.payload)) := by
  obtain ⟨s, fits, node, salt, newSession, rfl⟩ := stamped
  refine ⟨decode_encode (fits.stamp node salt newSession) fun n member => ?_,
    s.verify_onWire_iff node salt newSession⟩
  cases n with
  | int i word => exact Json.readsBack_int word
  | float x finite => exact floats x finite member

end Rpc

/-! ### What back-ends answer -/

def Ending.Fits : Ending → Prop
  | .answered response => response.Fits
  | .crashed => True

namespace Backend

theorem scriptCall_error {root : String} {t : FileTree} {caller : Caller} {r : Rpc.Request}
    {e : Rpc.Error} (refused : scriptCall root t caller r = .error e) : e.data = none := by
  unfold scriptCall at refused
  split at refused
  · rename_i fault _
    obtain rfl := Except.error.inj refused
    cases fault <;> rfl
  · unfold params at refused
    split at refused
    all_goals first
      | (obtain rfl := Except.error.inj refused; rfl)
      | simp [Except.map] at refused

theorem respond_fits {r : Rpc.Request} {answer : Except Engine.Fault Answer.Reply}
    (idFits : r.IdFits) (fits : ∀ reply, answer = .ok reply → reply.DataFits) :
    (respond r (.ok answer)).Fits := by
  cases answer with
  | error fault => exact Rpc.Response.fits_refusal idFits.orNull rfl
  | ok reply =>
    cases reply with
    | result value =>
      have nests : Json.Fits Bridge.maxDepth value := fits _ rfl
      exact Rpc.Response.fits_success idFits.orNull (nests.mono (by decide))
    | error e =>
      have nests : ∀ v, e.data = some v → Json.Fits Bridge.maxDepth v := fits _ rfl
      exact Rpc.Response.fits_failure idFits.orNull fun v found => (nests v found).mono (by decide)

/-- Whatever a script does, the response that comes of it fits. -/
theorem scripts_fits (t : FileTree) (now : Int) (caller : Caller) {r : Rpc.Request} (g : Engine)
    (idFits : r.IdFits) : (scripts t now caller r g).1.Fits := by
  unfold scripts
  split
  · rename_i e refused
    exact Rpc.Response.fits_refusal idFits.orNull (scriptCall_error refused)
  · exact respond_fits idFits fun reply found => g.execute_fits t now _ found

end Backend

namespace Gateway

/-! ### What plans reply -/

/-- The ids in a slot fit, and its error has no data. -/
def Slot.Fits : Slot → Prop
  | .refused id error => Json.Fits 126 id ∧ error.data = none
  | .ignored => True
  | .call id request => request.id = some id ∧ request.IdFits
  | .notification request => request.IdFits

theorem Slot.fits_fault {id : Option Json} {error : Rpc.Error}
    (idFits : ∀ v, id = some v → Json.Fits 126 v) (plain : error.data = none) :
    (fault id error).Fits := by
  cases id with
  | none => trivial
  | some id => exact ⟨idFits id rfl, plain⟩

theorem Slot.fits_ofRequest (serves : String → Bool) {r : Rpc.Request} (idFits : r.IdFits) :
    (ofRequest serves r).Fits := by
  unfold ofRequest
  split
  · exact fits_fault idFits rfl
  · split
    · exact fits_fault idFits rfl
    · split
      · rename_i id present
        exact ⟨present, idFits⟩
      · exact idFits

theorem Slot.idFits_of_request? {slot : Slot} {r : Rpc.Request} (fits : slot.Fits)
    (asks : slot.request? = some r) : r.IdFits := by
  cases slot with
  | refused | ignored => simp [request?] at asks
  | call id request => exact Option.some.inj asks ▸ fits.2
  | notification request => exact Option.some.inj asks ▸ fits

theorem Slot.response?_fits {slot : Slot} {ending : Option Ending} {r : Rpc.Response}
    (fits : slot.Fits) (ended : ∀ e, ending = some e → e.Fits)
    (goes_out : slot.response? ending = some r) : r.Fits := by
  cases slot with
  | refused id error => exact Option.some.inj goes_out ▸ Rpc.Response.fits_refusal fits.1 fits.2
  | ignored | notification => simp [response?] at goes_out
  | call id request =>
    obtain ⟨e, rfl, shape⟩ := Option.map_eq_some_iff.mp goes_out
    cases e with
    | answered response => exact shape ▸ ended _ rfl
    | crashed => exact shape ▸ Rpc.Response.fits_refusal (fits.2 id fits.1) rfl

/-- The slots of a plan fit, and the error of a body that is refused has no data. -/
structure Plan.Fits (plan : Plan) : Prop where
  slots : ∀ slot ∈ plan.slots, slot.Fits
  refused : ∀ status error, plan = .refused status error → error.data = none

theorem Plan.fits_refused (status : Http.Status) {error : Rpc.Error} (plain : error.data = none) :
    (refused status error).Fits where
  slots := by simp [Plan.slots]
  refused := fun _ other equal => by
    obtain ⟨-, rfl⟩ := Plan.refused.inj equal
    exact plain

theorem Plan.fits_ofEnvelope (serves : String → Bool) {envelope : Rpc.Envelope}
    (idFits : ∀ r ∈ envelope.requests, r.IdFits) : (ofEnvelope serves envelope).Fits := by
  unfold ofEnvelope
  split
  · rename_i r
    refine ⟨fun slot member => ?_, fun _ _ equal => by simp at equal⟩
    obtain rfl := List.mem_singleton.mp member
    exact Slot.fits_ofRequest serves (idFits r (by simp [Rpc.Envelope.requests]))
  · exact fits_refused _ rfl
  · rename_i members _
    refine ⟨fun slot member => ?_, fun _ _ equal => by simp at equal⟩
    obtain ⟨m, inside, rfl⟩ := List.mem_map.mp member
    cases m with
    | none => exact ⟨Json.fits_null, rfl⟩
    | some r =>
      exact Slot.fits_ofRequest serves (idFits r (by simpa [Rpc.Envelope.requests] using inside))

/-- The plan for a body fits, whatever the body is. -/
theorem Plan.fits_ofBody (serves : String → Bool) (body : Option Bytes) :
    (ofBody serves body).Fits := by
  cases body with
  | none => exact fits_refused _ rfl
  | some body =>
    unfold ofBody
    dsimp only
    split
    · exact fits_refused _ rfl
    · rename_i envelope read
      exact fits_ofEnvelope serves (Rpc.Envelope.idFits_of_parse read)

theorem Plan.reply_fits {plan : Plan} {endings : Nat → Option Ending} (fits : plan.Fits)
    (ended : ∀ i e, endings i = some e → e.Fits) :
    ∀ r ∈ (plan.reply endings).responses, r.Fits := by
  intro r member
  cases plan with
  | refused status error =>
    obtain rfl := List.mem_singleton.mp member
    exact Rpc.Response.fits_refusal Json.fits_null (fits.refused status error rfl)
  | single slot =>
    cases goes_out : slot.response? (endings 0) with
    | none => simp [reply, goes_out, Reply.responses] at member
    | some response =>
      obtain rfl : r = response := by simpa [reply, goes_out, Reply.responses] using member
      exact Slot.response?_fits (fits.slots slot (by simp [slots])) (ended 0) goes_out
  | batch slots =>
    obtain ⟨⟨slot, i⟩, inside, goes_out⟩ := List.mem_filterMap.mp member
    have at_i : slots[i]? = some slot := List.mk_mem_zipIdx_iff_getElem?.mp inside
    exact Slot.response?_fits (fits.slots slot (List.mem_of_getElem? at_i)) (ended i) goes_out

theorem Reply.isStamped {reply : Reply} (fits : ∀ r ∈ reply.responses, r.Fits) (node : String)
    (newSession : Option String) (salt : Nat → String) :
    ∀ r ∈ (reply.stamp node newSession salt).responses, r.IsStamped := by
  intro r member
  cases reply with
  | single response =>
    obtain rfl := List.mem_singleton.mp member
    exact ⟨response, fits response (by simp [responses]), node, salt 0, newSession, rfl⟩
  | batch responses =>
    obtain ⟨i, bound, rfl⟩ := List.mem_mapIdx.mp member
    exact ⟨responses[i], fits _ (List.getElem_mem bound), node, salt i, newSession, rfl⟩
  | empty => simp [stamp, responses] at member

/-! ### What exchanges send -/

/-- All that an exchange has come to fits: its plan, the endings of its slots, and what it has
replied. -/
structure Exchange.Fits (x : Exchange) : Prop where
  plan : x.plan.Fits
  ended : ∀ i e, x.ending? i = some e → e.Fits
  replied : ∀ reply, x.stage = .replied reply → ∀ r ∈ reply.responses, r.IsStamped

theorem Exchange.fits_new {x : Exchange} (plan : x.plan.Fits)
    (waiting : ∀ progress ∈ x.progress, progress = .waiting)
    (silent : ∀ reply, x.stage ≠ .replied reply) : x.Fits where
  plan := plan
  ended := fun i e found => by
    obtain ⟨progress, at_i, ended⟩ := Option.bind_eq_some_iff.mp found
    obtain rfl := waiting progress (List.mem_of_getElem? at_i)
    simp [Progress.ending?] at ended
  replied := fun reply found => absurd found (silent reply)

theorem Begins.fits {p : Terms} {t : Traffic} {e : Event} {x : Exchange} (begins : Begins p t e x) :
    x.Fits := by
  cases begins with
  | admitted caller body now =>
    exact Exchange.fits_new (Plan.fits_ofBody p.serves body) (by simp [Exchange.admitted])
      (by simp [Exchange.admitted])
  | busy caller =>
    exact Exchange.fits_new (Plan.fits_refused _ rfl) (by simp [Exchange.busy])
      (by simp [Exchange.busy])
  | aborted caller =>
    exact Exchange.fits_new (Plan.fits_refused _ rfl) (by simp [Exchange.aborted])
      (by simp [Exchange.aborted])

/-- What ends a slot is a crash or the back-end of the scripts, run for the request in the slot. -/
def Exchange.Scripted (x : Exchange) (i : Nat) (ending : Ending) : Prop :=
  ending = .crashed ∨ ∃ r, x.request? i = some r ∧
    ∃ tree now engine, ending = (Backend.scripts tree now x.caller r engine).1

theorem Exchange.Scripted.fits {x : Exchange} {i : Nat} {ending : Ending}
    (scripted : x.Scripted i ending) (plan : x.plan.Fits) : ending.Fits := by
  rcases scripted with rfl | ⟨r, asks, tree, now, engine, rfl⟩
  · trivial
  · obtain ⟨slot, at_i, asks⟩ := Option.bind_eq_some_iff.mp asks
    have idFits := Slot.idFits_of_request? (plan.slots slot (List.mem_of_getElem? at_i)) asks
    exact Backend.scripts_fits tree now x.caller engine idFits

namespace Traffic

variable {p : Terms} {t : Traffic}

def Scripted (t : Traffic) : Event → Prop
  | .finish n i ending => ∃ x, t.exchange? n = some x ∧ x.Scripted i ending
  | .arrive .. | .start .. | .reply .. | .sweep .. => True

theorem fits_moves {e : Event} {n : Nat} {x y : Exchange} (scripted : t.Scripted e)
    (found : t.exchange? n = some x) (moves : Moves p n e x y) (fits : x.Fits) : y.Fits := by
  refine ⟨moves.plan ▸ fits.plan, fun i ending ended => ?_, fun reply sent => ?_⟩
  · rcases moves.ending?_cases ended with before | rfl
    · exact fits.ended i ending before
    · -- The request that the back-end was run for is that of the slot, whose id fits.
      obtain ⟨z, also, scripted⟩ := scripted
      obtain rfl : x = z := Option.some.inj (found.symm.trans also)
      exact scripted.fits fits.plan
  · cases moves with
    | stay => exact fits.replied reply sent
    | start x i => exact fits.replied reply (by simpa using sent)
    | finish x i ending => exact fits.replied reply (by simpa using sent)
    | reply x salt =>
      obtain rfl := Stage.replied.inj sent
      exact Reply.isStamped (Plan.reply_fits fits.plan fits.ended) p.node x.newSession salt

/-- Every response that goes out in a run is read back by a client but for null data of its error.
Its checksum then holds, unless there is such data and leaving it out changes the checksum. -/
theorem responses_arrive (p : Terms) (events : List Event)
    (scripted : Run.Along (step p) Scripted {} events) {n : Nat} {x : Exchange} {reply : Reply}
    {r : Rpc.Response} (found : (run p {} events).exchange? n = some x)
    (replied : x.stage = .replied reply) (member : r ∈ reply.responses)
    (floats : ∀ f finite, Json.Number.float f finite ∈ r.numbers →
      (Json.Number.float f finite).ReadsBack) :
    Rpc.Response.decode r.encode = .ok r.onWire ∧
      (r.onWire.verify = true ↔ (r.hasNullData = true →
        Rpc.checksum r.onWire.payload = Rpc.checksum r.payload)) := by
  have fits : x.Fits := exchanges_keep (P := Exchange.Fits) (fun t e x begins => begins.fits)
    (fun t e n x y allowed found moves kept => fits_moves allowed found moves kept) scripted found
  exact (fits.replied reply replied r member).arrives floats

/-- A call without a method whose id is no integer: what is sent for it holds where it arrives. -/
theorem responses_arrive_without_method :
    let p : Terms := { node := "n", ttl := .ofSeconds 60, serves := (· = "v1") }
    let now : Time.Instant := ⟨0, 0, by decide, by decide⟩
    let caller : Caller := { session := "s" }
    let id : Json := .num (.float ⟨0x3FE0000000000000⟩ (by decide))
    let request : Rpc.Request := { id := some id, contextVersion := "v1" }
    let engine : Engine := { root := "", costs := ⟨4, 4, 4⟩, network := fun _ => .error "" }
    let events : List Event := [.arrive caller (some request.encode) now, .start 0 0,
      .finish 0 0 (Backend.scripts {} 0 caller request engine).1, .reply 0 fun _ => "salt"]
    let sent := (Rpc.Response.failure id .methodMissing).stamp "n" "salt" none
    ((run p {} events).exchange? 0).map (·.stage) = some (.replied (.single sent)) ∧
      Rpc.Response.decode sent.encode = .ok sent.onWire ∧ sent.onWire.verify = true := by
  intro p now caller id request engine events sent
  have stage : ((run p {} events).exchange? 0).map (·.stage) = some (.replied (.single sent)) := by
    decide +kernel
  obtain ⟨x, found, replied⟩ := Option.map_eq_some_iff.mp stage
  have running : (run p {} (events.take 2)).exchange? 0 = some
      { caller, guard := some ⟨"s"⟩, plan := .single (.call id request), progress := [.running],
        stage := .underway } := by decide +kernel
  have scripted : Run.Along (step p) Scripted {} events :=
    ⟨trivial, trivial, ⟨_, running, .inr ⟨request, rfl, {}, 0, engine, rfl⟩⟩, trivial, trivial⟩
  have back : (Json.Number.float ⟨0x3FE0000000000000⟩ (by decide)).ReadsBack := by
    unfold Json.Number.ReadsBack
    decide +kernel
  have floats : ∀ f finite, Json.Number.float f finite ∈ sent.numbers →
      (Json.Number.float f finite).ReadsBack := fun f finite member =>
    List.mem_singleton.mp member ▸ back
  have arrives := responses_arrive p events scripted found replied (List.mem_singleton.mpr rfl)
    floats
  exact ⟨stage, arrives.1, arrives.2.mpr (by decide)⟩

/-- A script declares an error whose data is not a number. The stamp holds where it is made, and not
where it arrives. -/
theorem null_data_breaks_stamp :
    let surroundings : Guest.Surroundings := {
      call := { caller := { session := "s" }, method := "m", params := .null, script := "m.lua" }
      seed := 0
      costs := ⟨4, 4, 4⟩
      now := 0
      network := fun _ => .error ""
      file := fun _ => none }
    let arguments : List Lua.Value := [.int 1, .text "x", .float .nan]
    let world := (Guest.Host.call surroundings {} (.initial "" 0 0) .responseSendError
      arguments).world
    let sent := (Backend.respond { id := some (.int 1) } (.ok (.ok world.draft.finish))).stamp
      "n" "salt" none
    sent.verify = true ∧ ∃ arrived,
      Rpc.Response.decode sent.encode = .ok arrived ∧ arrived.verify = false := by
  intro surroundings arguments world sent
  exact ⟨Rpc.Response.verify_stamp .., sent.onWire, by decide +kernel, by decide +kernel⟩

end Traffic

end Gateway

end ScriptGate
