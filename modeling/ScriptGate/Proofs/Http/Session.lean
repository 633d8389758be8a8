import ScriptGate.Guest.Host
import ScriptGate.Proofs.Http.Handling
import ScriptGate.Proofs.Lua.Table
import ScriptGate.Proofs.Rpc.RoundTrip
import ScriptGate.Proofs.Text.Visible

/-!
# The session of a request

The id of a session is chosen once and shown in many places: in the header of the answer, in the
stamp of each response, to the registry and to the scripts. `Chooses` says which id it is, and every
place shows that one, whatever becomes of the request.
-/

namespace ScriptGate

/-! ### The session that a request names -/

namespace Http

/-- The first line with the header of a session names it: its value without the blanks at its ends,
where the value is visible and not blank. -/
def Names (headers : List HeaderLine) (id : String) : Prop :=
  ∃ before line after value, headers = before ++ line :: after ∧
    (∀ other ∈ before, Caller.lower other.name ≠ sessionHeader) ∧
    Caller.lower line.name = sessionHeader ∧
    line.value = Bytes.ofString value ∧ (∀ c ∈ value.toList, IsVisible c) ∧
    Text.trim value = id ∧ id ≠ ""

/-- The session of a request with these header lines, and whether it is a fresh one. -/
inductive Chooses (headers : List HeaderLine) (fresh : String) : String → Bool → Prop where
  | named (id : String) : Names headers id → Chooses headers fresh id false
  | minted : (∀ id, ¬ Names headers id) → Chooses headers fresh fresh true

namespace Request

variable {r : Request} {peer : Option Net.SocketAddress} {fresh : String}

theorem session?_eq_some_iff {id : String} : r.session? = some id ↔ Names r.headers id := by
  simp only [session?, Option.filter_eq_some_iff, Option.bind_eq_some_iff, Option.map_eq_some_iff,
    List.find?_eq_some_iff_append, Utf8.visible?_eq_some_iff, decide_eq_true_eq, Bool.not_eq_true',
    decide_eq_false_iff_not, Names]
  constructor
  · rintro ⟨⟨line, ⟨named, before, after, parts, others⟩, value, ⟨bytes, visible⟩, trimmed⟩, some⟩
    exact ⟨before, line, after, value, parts, others, named, bytes, visible, trimmed, some⟩
  · rintro ⟨before, line, after, value, parts, others, named, bytes, visible, trimmed, some⟩
    exact ⟨⟨line, ⟨named, before, after, parts, others⟩, value, ⟨bytes, visible⟩, trimmed⟩, some⟩

theorem chooses (r : Request) (peer : Option Net.SocketAddress) (fresh : String) :
    Chooses r.headers fresh (r.caller peer fresh).session (r.caller peer fresh).minted := by
  cases found : r.session? with
  | some id =>
    have named := session?_eq_some_iff.mp found
    simpa [caller, found] using Chooses.named id named
  | none =>
    have unnamed (id : String) : ¬ Names r.headers id := fun named =>
      absurd (session?_eq_some_iff.mpr named) (by simp [found])
    simpa [caller, found] using Chooses.minted unnamed

end Request

/-- A session can be shown in a header line, if a fresh one can. -/
theorem Chooses.legal {headers : List HeaderLine} {fresh id : String} {minted : Bool}
    (chooses : Chooses headers fresh id minted) (legal : isHeaderValue fresh = true) :
    isHeaderValue id = true := by
  cases chooses with
  | named id named =>
    obtain ⟨-, -, -, value, -, -, -, -, visible, rfl, -⟩ := named
    exact isHeaderValue_of_visible fun c member => visible c (Text.mem_of_mem_trim member)
  | minted => exact legal

end Http

/-! ### The documents of a body -/

/-- The value below some keys, each in the object below the one before it. -/
def Json.at? : List String → Json → Option Json
  | [], v => some v
  | key :: keys, .obj members => (find? key members).bind (at? keys)
  | _ :: _, _ => none

theorem Json.encodeItems_eq (items : List Json) :
    encodeItems items = List.intercalate [0x2C] (items.map encode) := by
  induction items with
  | nil => rfl
  | cons x rest ih =>
    cases rest with
    | nil => simp [encodeItems]
    | cons y rest =>
      rw [encodeItems, ih]
      simp [List.intercalate_cons_cons]

theorem Rpc.Stamp.at?_newSession (d : Stamp) :
    d.document.at? ["new-session-uuid"] = d.newSession.map .str := by
  obtain ⟨node, salt, checksum, session⟩ := d
  cases session <;> rfl

theorem Rpc.Response.at?_data (r : Response) (keys : List String) :
    r.document.at? ("data" :: keys) = r.data.bind fun d => d.document.at? keys := by
  obtain ⟨jsonrpc, id, result, error, data⟩ := r
  cases result <;> cases error <;> cases data <;> simp [document, members, Json.at?, Json.find?]

namespace Http

/-- A body that is empty, or shows one object or an array of objects. -/
inductive Shows : Bytes → List Json → Prop where
  | nothing : Shows [] []
  | single (members : List (String × Json)) : Shows (Json.obj members).encode [.obj members]
  | batch (objects : List (List (String × Json))) :
      Shows (Json.arr (objects.map .obj)).encode (objects.map .obj)

end Http

theorem Gateway.Reply.shows_encode (reply : Reply) :
    Http.Shows reply.encode (reply.responses.map Rpc.Response.document) := by
  cases reply with
  | single r =>
    rw [encode, ← r.encode_document]
    exact .single r.members
  | batch rs =>
    have objects : (rs.map Rpc.Response.members).map Json.obj = rs.map Rpc.Response.document := by
      rw [List.map_map]
      rfl
    have whole : (Json.arr (rs.map Rpc.Response.document)).encode = encode (.batch rs) := by
      rw [Json.encode, Json.encodeItems_eq, encode, List.map_map]
      simp [Function.comp_def, Rpc.Response.encode_document]
    have shows := Http.Shows.batch (rs.map Rpc.Response.members)
    rwa [objects, whole] at shows
  | empty => exact .nothing

/-! ### What carries a session -/

namespace Http

/-- The values of the session headers of an answer. -/
def Answer.sessions (a : Answer) : List String :=
  (a.headers.filter fun h => Caller.lower h.1 = sessionHeader).map Prod.snd

/-- An answer carries a session in its one session header. Its body shows these responses, and each
of them has the session in its stamp where it is a fresh one, and none elsewhere. -/
structure Answer.Carries (a : Answer) (id : String) (minted : Bool)
    (responses : List Rpc.Response) : Prop where
  header : a.sessions = [id]
  body : Shows a.body (responses.map Rpc.Response.document)
  stamps : ∀ r ∈ responses, r.document.at? ["data", "new-session-uuid"] =
    if minted then some (.str id) else none

theorem Answer.sessions_of {id : String} (legal : isHeaderValue id = true) (status : Status)
    (body : Bytes) : (Answer.of status body (some id)).sessions = [id] := by
  have session : Caller.lower sessionHeader = sessionHeader := by decide +kernel
  have other : Caller.lower "content-type" ≠ sessionHeader := by decide +kernel
  simp [Answer.sessions, Answer.of, Option.filter, legal, session, other]

theorem Answer.sessions_of_none (status : Status) (body : Bytes) :
    (Answer.of status body none).sessions = [] := by
  have other : Caller.lower "content-type" ≠ sessionHeader := by decide +kernel
  simp [Answer.sessions, Answer.of, other]

end Http

namespace Rpc.Response

theorem at?_newSession_stamp (r : Response) (node salt : String) (newSession : Option String) :
    (r.stamp node salt newSession).document.at? ["data", "new-session-uuid"] =
      newSession.map .str := by
  rw [at?_data]
  exact Stamp.at?_newSession _

end Rpc.Response

namespace Gateway

theorem Reply.newSession_stamp (reply : Reply) (node : String) (newSession : Option String)
    (salt : Nat → String) {r : Rpc.Response}
    (member : r ∈ (reply.stamp node newSession salt).responses) :
    r.document.at? ["data", "new-session-uuid"] = newSession.map .str := by
  cases reply with
  | single response =>
    obtain rfl := List.mem_singleton.mp member
    exact response.at?_newSession_stamp ..
  | batch responses =>
    obtain ⟨i, inside, rfl⟩ := List.mem_mapIdx.mp member
    exact Rpc.Response.at?_newSession_stamp ..
  | empty => cases member

theorem Reply.carries_stamp (reply : Reply) (node : String) (salt : Nat → String) {caller : Caller}
    (legal : Http.isHeaderValue caller.session = true) (status : Http.Status) :
    let stamped := reply.stamp node (if caller.minted then some caller.session else none) salt
    (Http.Answer.of status stamped.encode (some caller.session)).Carries caller.session
      caller.minted stamped.responses where
  header := Http.Answer.sessions_of legal ..
  body := shows_encode _
  stamps r member := by
    rw [newSession_stamp _ _ _ _ member]
    cases caller.minted <;> rfl

/-- The answer with the reply of an exchange carries the session of its caller. -/
theorem Exchange.carries_reply (x : Exchange) (node : String) (salt : Nat → String)
    (legal : Http.isHeaderValue x.caller.session = true) (status : Http.Status) :
    (Http.Answer.of status (x.reply node salt).encode (some x.caller.session)).Carries
      x.caller.session x.caller.minted (x.reply node salt).responses :=
  Reply.carries_stamp _ node salt legal status

/-! ### How many responses there are -/

def Slot.isAnswered : Slot → Bool
  | .refused _ _ | .call _ _ => true
  | .ignored | .notification _ => false

def Plan.responseCount (plan : Plan) : Nat :=
  match plan with
  | .refused _ _ => 1
  | .single _ | .batch _ => plan.slots.countP Slot.isAnswered

theorem Slot.isSome_response? {slot : Slot} {ending : Option Ending}
    (ended : slot.isAwaited = true → ending.isSome = true) :
    (slot.response? ending).isSome = slot.isAnswered := by
  cases slot with
  | call id request => rw [response?, Option.isSome_map, ended rfl, isAnswered]
  | refused | ignored | notification => rfl

theorem Plan.length_reply {plan : Plan} {endings : Nat → Option Ending}
    (ended : ∀ i, plan.slots[i]?.any Slot.isAwaited = true → (endings i).isSome = true) :
    (plan.reply endings).responses.length = plan.responseCount := by
  have answered (slot : Slot) (i : Nat) (at_i : plan.slots[i]? = some slot) :
      (slot.response? (endings i)).isSome = slot.isAnswered :=
    Slot.isSome_response? fun awaited => ended i (by simpa [at_i] using awaited)
  cases plan with
  | refused status error => rfl
  | single slot =>
    have first := answered slot 0 rfl
    simp only [reply, responseCount, slots, List.countP_singleton, ← first]
    cases slot.response? (endings 0) <;> rfl
  | batch members =>
    have counted : members.zipIdx.countP (fun m => (m.1.response? (endings m.2)).isSome) =
        members.zipIdx.countP (Slot.isAnswered ∘ Prod.fst) :=
      List.countP_congr fun m inside => by
        rw [answered m.1 m.2 (List.mk_mem_zipIdx_iff_getElem?.mp inside), Function.comp]
    rw [reply, Reply.responses, List.length_filterMap_eq_countP, counted, ← List.countP_map,
      List.zipIdx_map_fst]
    rfl

theorem Reply.length_stamp (reply : Reply) (node : String) (newSession : Option String)
    (salt : Nat → String) :
    (reply.stamp node newSession salt).responses.length = reply.responses.length := by
  cases reply with
  | single r => rfl
  | batch rs => exact List.length_mapIdx
  | empty => rfl

theorem Exchange.length_reply {x : Exchange} (ready : x.isReady = true) (node : String)
    (salt : Nat → String) : (x.reply node salt).responses.length = x.plan.responseCount := by
  rw [reply, Reply.length_stamp]
  exact Plan.length_reply (x.isReady_iff.mp ready)

/-! ### What the registry makes of a request -/

/-- What the registry makes of an exchange that asks for a session, and which plan it has then. -/
inductive AsksFor (p : Terms) (sessions : Session.Registry) (id : String) (body : Option Bytes)
    (now : Time.Instant) : Exchange → Prop where
  | busy {x : Exchange} : id ∈ sessions.ids → x.guard = none →
      x.plan = .refused Http.ok .sessionBusy → AsksFor p sessions id body now x
  | admitted {x : Exchange} : id ∉ sessions.ids → x.guard = some ⟨id⟩ →
      x.plan = .ofBody p.serves body → AsksFor p sessions id body now x
  | overflow {x : Exchange} : id ∉ sessions.ids → now.add? p.ttl = none → x.guard = none →
      x.plan = .refused Http.internalServerError .internalError → x.stage = .aborted →
      AsksFor p sessions id body now x

theorem AsksFor.moves {p : Terms} {sessions : Session.Registry} {id : String}
    {body : Option Bytes} {now : Time.Instant} {n : Nat} {e : Event} {x y : Exchange}
    (asks : AsksFor p sessions id body now x) (moves : Moves p n e x y) :
    AsksFor p sessions id body now y := by
  have guard := moves.guard
  have plan := moves.plan
  cases asks with
  | busy held unguarded refused => exact .busy held (guard.trans unguarded) (plan.trans refused)
  | admitted free guarded planned =>
    exact .admitted free (guard.trans guarded) (plan.trans planned)
  | overflow free late unguarded refused aborted =>
    refine .overflow free late (guard.trans unguarded) (plan.trans refused) ?_
    cases moves with
    | stay => exact aborted
    | start x i => exact (x.start_stage i).trans aborted
    | finish x i ending => exact (x.finish_stage i ending).trans aborted
    | reply x salt underway => exact absurd (aborted.symm.trans underway) (by simp)

variable {σ : Type} {g : Gateway σ} {s : σ} {caller : Caller} {body : Option Bytes}
  {now : Time.Instant} {salt : Nat → String}

theorem asksFor_opening (sessions : Session.Registry) :
    AsksFor g.terms sessions caller.session body now
      (((g.opening sessions caller body now).served g s).conclude g.node salt) := by
  rcases g.opening_cases sessions caller body now with
    ⟨held, opened⟩ | ⟨free, -, opened⟩ | ⟨free, late, opened⟩
  · exact opened ▸ .busy held rfl rfl
  · exact opened ▸ .admitted free rfl rfl
  · exact opened ▸ .overflow free late rfl rfl rfl

theorem isReady_opening (sessions : Session.Registry) :
    ((g.opening sessions caller body now).served g s).isReady = true := by
  rcases g.opening_cases sessions caller body now with
    ⟨-, opened⟩ | ⟨-, -, opened⟩ | ⟨-, -, opened⟩
  · exact opened ▸ rfl
  · exact opened ▸ isReady_served s
  · exact opened ▸ rfl

/-- However back-ends start, end and crash after a body has arrived, the exchange that answers it
keeps its caller and its plan, and its reply carries the session. -/
theorem Traffic.carries_run (p : Terms) (t : Traffic) (caller : Caller) (body : Option Bytes)
    (now : Time.Instant) (later : List Event) (legal : Http.isHeaderValue caller.session = true) :
    ∃ x, (t.run p (.arrive caller body now :: later)).exchange? t.exchanges.length = some x ∧
      x.caller = caller ∧ AsksFor p t.sessions caller.session body now x ∧
      ∀ reply, x.stage = .replied reply →
        reply.responses.length = x.plan.responseCount ∧ ∀ status,
          (Http.Answer.of status reply.encode (some x.caller.session)).Carries
            caller.session caller.minted reply.responses := by
  have arrived : ∃ x, (t.step p (.arrive caller body now)).exchange? t.exchanges.length = some x ∧
      x.caller = caller ∧ AsksFor p t.sessions caller.session body now x ∧
      ∀ reply, x.stage ≠ .replied reply := by
    rcases t.arrive_cases p caller body now with
      ⟨held, equal⟩ | ⟨free, expiry, equal⟩ | ⟨free, late, equal⟩
    · exact ⟨.busy caller, by simp [step, equal, exchange?], rfl, .busy held rfl rfl,
        by simp [Exchange.busy]⟩
    · exact ⟨.admitted caller (.ofBody p.serves body), by simp [step, equal, exchange?], rfl,
        .admitted free rfl rfl, by simp [Exchange.admitted]⟩
    · exact ⟨.aborted caller, by simp [step, equal, exchange?], rfl,
        .overflow free late rfl rfl rfl, by simp [Exchange.aborted]⟩
  obtain ⟨x, found, called, asks, unsent⟩ := arrived
  refine moves_run (fun e x y moves kept => ?_) found
    ⟨called, asks, fun reply sent => absurd sent (unsent reply)⟩ later
  obtain ⟨rfl, asks, sent⟩ := kept
  refine ⟨moves.caller, asks.moves moves, ?_⟩
  cases moves with
  | stay => exact sent
  | start x i => simpa using sent
  | finish x i ending => simpa using sent
  | reply x salt underway ready =>
    intro reply replied
    obtain rfl := Stage.replied.inj replied
    exact ⟨Exchange.length_reply ready p.node salt, x.carries_reply p.node salt legal⟩

end Gateway

/-! ### What scripts see -/

namespace Guest

theorem Module.member_tableOf {members : List (String × Lua.Value)}
    (nodup : ((members.map Prod.fst).map Lua.Value.text).Nodup)
    (present : ∀ m ∈ members, m.2 ≠ .nil) {name : String} {v : Lua.Value}
    (member : (name, v) ∈ members) (h : Lua.Heap) :
    (tableOf members h).2.member h.tables.size name = v := by
  have made : (tableOf members h).2.table h.tables.size =
      .ofEntries (members.map fun m => (.text m.1, m.2)) := by
    simp [tableOf, Lua.Heap.newTable, Lua.Heap.table]
  rw [Lua.Heap.member, made]
  refine Lua.Table.get_ofEntries ?_ ?_ (List.mem_map_of_mem member)
  · rwa [List.map_map] at nodup ⊢
  · exact List.forall_mem_map.mpr present

theorem Module.sessionTable_eq (c : Call) (seed : Int64) (h : Lua.Heap) :
    ∃ request response heap, sessionTable c seed h = seeded seed
      [("id", .text c.caller.session), ("request", .table request), ("response", .table response)]
      heap := ⟨_, _, _, rfl⟩

/-- A script sees a session: as the id in the module with its request, in the lines that it adds to
the journal, and in the headers that tell another server about the caller. -/
structure Call.Shows (c : Call) (id : String) : Prop where
  module : ∀ seed costs h, ∃ place, (Module.session.build c seed costs h).1 = .table place ∧
    (Module.session.build c seed costs h).2.member place "id" = .text id
  journal : ∀ (e : Surroundings) w h severity args, e.call = c → ∃ message,
    (Host.call e w h (.logLine severity) args).world.journal =
      .script severity c.script id message :: w.journal
  headers : ∀ value, ("X-Session-UUID", value) ∈ c.caller.initiatorHeaders ↔ value = id

theorem Call.shows_session (c : Call) : c.Shows c.caller.session where
  module seed costs h := by
    obtain ⟨request, response, heap, equal⟩ := Module.sessionTable_eq c seed h
    have keys : (["id", "request", "response", seedKey].map Lua.Value.text).Nodup := by
      decide +kernel
    rw [show Module.session.build c seed costs h = Module.sessionTable c seed h from rfl, equal]
    refine ⟨heap.tables.size, rfl, Module.member_tableOf ?_ ?_ (List.mem_cons_self ..) heap⟩
    · exact keys
    · simp [Lua.Value.text, Lua.Value.int]
  journal e w h severity args same := ⟨_, by rw [← same]; rfl⟩
  headers value := by simp [Caller.initiatorHeaders]

end Guest

namespace Backend

theorem scriptCall_caller {root : String} {t : FileTree} {caller : Caller} {r : Rpc.Request}
    {c : Guest.Call} (found : scriptCall root t caller r = .ok c) : c.caller = caller := by
  unfold scriptCall at found
  split at found
  · cases found
  · obtain ⟨params, -, rfl⟩ := Json.map_eq_ok found
    rfl

end Backend

/-! ### The session of an answer -/

namespace Http.Server

variable {σ : Type} {v : Server σ} {s : σ} {t : Gateway.Traffic} {r : Request}
  {peer : Option Net.SocketAddress} {now : Time.Instant} {d : Draw}

theorem carries_refusal {caller : Caller} (legal : isHeaderValue caller.session = true)
    (status : Status) (error : Rpc.Error) (node : String) (d : Draw) :
    ∃ response : Rpc.Response, response.id = .null ∧ response.error = some error ∧
      (refusal status error node caller d).Carries caller.session caller.minted [response] :=
  ⟨_, rfl, rfl, (Gateway.Reply.single (.failure .null error)).carries_stamp node d.salt legal status⟩

theorem carries_not_post (here : r.path = v.route) (other : r.method ≠ "POST")
    (legal : isHeaderValue (r.caller peer d.session).session = true) :
    ∃ response : Rpc.Response, response.id = .null ∧ response.error = some .invalidRequest ∧
      (v.handle ⟨t, s⟩ r peer now d).1.Carries (r.caller peer d.session).session
        (r.caller peer d.session).minted [response] := by
  rw [handle_not_post here other]
  exact carries_refusal legal ..

/-- The exchange of a body on the route, after its answer. -/
def concluded (v : Server σ) (t : Gateway.Traffic) (s : σ) (r : Request)
    (peer : Option Net.SocketAddress) (now : Time.Instant) (d : Draw) : Gateway.Exchange :=
  ((v.opening t r peer now d).served v.gateway s).conclude v.gateway.node d.salt

theorem caller_concluded (v : Server σ) (t : Gateway.Traffic) (s : σ) (r : Request)
    (peer : Option Net.SocketAddress) (now : Time.Instant) (d : Draw) :
    (v.concluded t s r peer now d).caller = r.caller peer d.session := by
  rw [concluded, Gateway.Exchange.conclude_caller, Gateway.Exchange.served_caller, opening,
    Gateway.opening_caller]

theorem answer_post (here : r.path = v.route) (post : r.method = "POST") :
    (v.handle ⟨t, s⟩ r peer now d).1 = .of (v.concluded t s r peer now d).plan.status
      ((v.concluded t s r peer now d).reply v.gateway.node d.salt).encode
      (some (r.caller peer d.session).session) := by
  have answered := answerOf_conclude (v := v) (d := d)
    (x := (v.opening t r peer now d).served v.gateway s) (v.stage_opening t r peer now d)
    plan_opening_of_aborted
  rw [handle_post here post, ← v.caller_concluded t s r peer now d, concluded]
  simp only [Gateway.Exchange.conclude_plan, Gateway.Exchange.conclude_reply,
    Gateway.Exchange.conclude_caller]
  exact answered

theorem carries_post (v : Server σ) (t : Gateway.Traffic) (s : σ) (now : Time.Instant)
    (here : r.path = v.route) (post : r.method = "POST")
    (legal : isHeaderValue (r.caller peer d.session).session = true) :
    let x := v.concluded t s r peer now d
    (v.handle ⟨t, s⟩ r peer now d).1.status = x.plan.status ∧
      (v.handle ⟨t, s⟩ r peer now d).1.Carries (r.caller peer d.session).session
        (r.caller peer d.session).minted (x.reply v.gateway.node d.salt).responses ∧
      (x.reply v.gateway.node d.salt).responses.length = x.plan.responseCount := by
  intro x
  have called : x.caller = r.caller peer d.session := v.caller_concluded t s r peer now d
  have ready : ((v.opening t r peer now d).served v.gateway s).isReady = true :=
    Gateway.isReady_opening ..
  rw [answer_post here post, ← called]
  refine ⟨rfl, x.carries_reply v.gateway.node d.salt (called ▸ legal) _, ?_⟩
  simp only [x, concluded, Gateway.Exchange.conclude_plan, Gateway.Exchange.conclude_reply]
  exact Gateway.Exchange.length_reply ready ..

/-- Every request to the route, whatever its method, its header lines and its body, whatever the
sessions that are held and whatever its back-ends do, is answered in the name of one session: the
one that its first session header names, or else the fresh one. The body shows the responses of the
reply, of which there are as many as the plan of the request says, each with that session. -/
theorem handle_session (v : Server σ) (t : Gateway.Traffic) (s : σ) (r : Request)
    (peer : Option Net.SocketAddress) (now : Time.Instant) (random : Bytes)
    (salt : Nat → String) :
    let d : Draw := ⟨Uuid.text random, salt⟩
    let a := (v.handle ⟨t, s⟩ r peer now d).1
    let after := (v.handle ⟨t, s⟩ r peer now d).2
    (r.path ≠ v.route ∧ a.status = notFound ∧ a.body = [] ∧ a.sessions = [] ∧ after = ⟨t, s⟩) ∨
    (r.path = v.route ∧ ∃ id minted,
      Chooses r.headers d.session id minted ∧
      (r.method ≠ "POST" ∧ a.status = methodNotAllowed ∧ after = ⟨t, s⟩ ∧
          (∃ response : Rpc.Response, response.id = .null ∧
            response.error = some .invalidRequest ∧ a.Carries id minted [response]) ∨
        r.method = "POST" ∧ ∃ x calls,
          after.traffic.exchanges = t.exchanges ++ [x] ∧ x.caller.session = id ∧
          Gateway.AsksFor v.gateway.terms t.sessions id (v.bodyOf r) now x ∧
          a.status = x.plan.status ∧
          a.Carries id minted (x.reply v.gateway.node salt).responses ∧
          (x.reply v.gateway.node salt).responses.length = x.plan.responseCount ∧
          v.recorded.handle ⟨t, s, []⟩ r peer now d =
            (a, ⟨after.traffic, after.shared, calls⟩) ∧
          ∀ call ∈ calls, call.1.session = id ∧ ∀ root tree c,
            Backend.scriptCall root tree call.1 call.2 = .ok c → c.Shows id) ∧
      ∀ body later, ∃ x,
        (t.run v.gateway.terms (.arrive (r.caller peer d.session) body now :: later)).exchange?
          t.exchanges.length = some x ∧ x.caller.session = id ∧
        Gateway.AsksFor v.gateway.terms t.sessions id body now x ∧
        (∀ reply, x.stage = .replied reply →
          reply.responses.length = x.plan.responseCount ∧ ∀ status,
            (Answer.of status reply.encode (some x.caller.session)).Carries id minted
              reply.responses) ∧
        (x.stage = .aborted → ∃ response : Rpc.Response, response.id = .null ∧
          response.error = some .internalError ∧
          (v.answerOf x d).Carries id minted [response])) := by
  intro d a after
  by_cases here : r.path = v.route
  · refine .inr ⟨here, (r.caller peer d.session).session, (r.caller peer d.session).minted, ?_⟩
    have chooses := r.chooses peer d.session
    have fresh : isHeaderValue d.session = true :=
      isHeaderValue_of_visible (Uuid.isVisible_text random)
    have legal := chooses.legal fresh
    refine ⟨chooses, ?_, fun body later => ?_⟩
    · by_cases post : r.method = "POST"
      · obtain ⟨status, carries, count⟩ := v.carries_post t s now here post legal
        refine .inr ⟨post, v.concluded t s r peer now d, _, ?_, congrArg _ (v.caller_concluded ..),
          Gateway.asksFor_opening .., status, carries, count, v.handle_recorded,
          fun call member => ?_⟩
        · simp only [after, handle_post here post]
          rfl
        · have called := caller_of_trail member
          refine ⟨congrArg Caller.session called, fun root tree c found => ?_⟩
          rw [← called, ← Backend.scriptCall_caller found]
          exact c.shows_session
      · have refused : v.handle ⟨t, s⟩ r peer now d = _ := handle_not_post here post ⟨t, s⟩
        exact .inl ⟨post, congrArg (·.1.status) refused, congrArg Prod.snd refused,
          carries_not_post here post legal⟩
    · obtain ⟨x, found, called, asks, carries⟩ :=
        t.carries_run v.gateway.terms (r.caller peer d.session) body now later legal
      refine ⟨x, found, congrArg Caller.session called, asks, carries, fun aborted => ?_⟩
      rw [answerOf, Gateway.Exchange.outcome?, aborted, called]
      exact carries_refusal legal ..
  · have answered : v.handle ⟨t, s⟩ r peer now d = _ := handle_elsewhere here ⟨t, s⟩
    refine .inl ⟨here, ?_, ?_, ?_, congrArg Prod.snd answered⟩
    · exact congrArg (·.1.status) answered
    · exact congrArg (·.1.body) answered
    · exact (congrArg (·.1.sessions) answered).trans (Answer.sessions_of_none ..)

/-- A batch of a call whose back-end crashes, a notification and a number, posted to an absolute
target with a blank header for the session: both of its responses have the fresh session. -/
theorem handle_session_of_crashing_batch :
    let backend : Backend Unit := fun _ _ s => (.crashed, s)
    let v : Server Unit :=
      ⟨{ node := "n", ttl := .ofSeconds 60, backends := [("v1", backend)] }, "/rpc", 1024⟩
    let call : Rpc.Request := { id := some (.int 1), method := "f", contextVersion := "v1" }
    let event : Rpc.Request := { method := "f", contextVersion := "v1" }
    let body := Bytes.ofString "[" ++
      List.intercalate [0x2C] [call.encode, event.encode, Bytes.ofString "7"] ++
      Bytes.ofString "]"
    let r : Request := {
      method := "POST"
      target := "http://node/rpc?x"
      headers := [⟨"X-Session-UUID", Bytes.ofString " "⟩]
      body := some body }
    let now : Time.Instant := ⟨0, 0, by decide, by decide⟩
    let d : Draw := { session := Uuid.text (List.replicate 16 0), salt := fun _ => "salt" }
    let id := "00000000-0000-4000-8000-000000000000"
    let a := (v.handle ⟨{}, ()⟩ r none now d).1
    a.status = ok ∧ a.sessions = [id] ∧ ∃ responses : List Rpc.Response, responses.length = 2 ∧
      Shows a.body (responses.map Rpc.Response.document) ∧
      ∀ response ∈ responses,
        response.document.at? ["data", "new-session-uuid"] = some (.str id) := by
  intro backend v call event body r now d id a
  have path : r.path = "/rpc" := by decide +kernel
  have fresh : d.session = id := by decide +kernel
  have unnamed : r.session? = none := by decide +kernel
  have room : now.add? v.gateway.ttl ≠ none := by decide
  rcases handle_session v {} () r none now (List.replicate 16 0) fun _ => "salt" with
    ⟨elsewhere, -⟩ | ⟨-, session, minted, chooses, answers, -⟩
  · exact absurd path elsewhere
  rcases answers with ⟨other, -⟩ | ⟨-, x, calls, -, -, asks, status, carries, count, -⟩
  · exact absurd rfl other
  have plan : x.plan = .ofBody v.gateway.terms.serves (v.bodyOf r) := by
    cases asks with
    | busy held => cases held
    | admitted _ _ plan => exact plan
    | overflow _ late => exact absurd late room
  rw [plan] at status count
  cases chooses with
  | named id named => exact absurd (Request.session?_eq_some_iff.mpr named) (by simp [unnamed])
  | minted =>
    refine ⟨status.trans (by decide +kernel), fresh ▸ carries.header, _,
      count.trans (by decide +kernel), carries.body, fun response member => ?_⟩
    rw [← fresh]
    exact carries.stamps response member

end Http.Server

end ScriptGate
