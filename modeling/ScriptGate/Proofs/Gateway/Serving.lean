import ScriptGate.Proofs.Backend
import ScriptGate.Proofs.Gateway.Handling

/-!
# What becomes of the members of a body

A gateway with back-ends of any kind and with the scripts over any engine. `Becomes` says what a
member of a body comes to: which back-end is invoked, whether the engine is entered, and the
response, by the first check that the member fails. The watched gateway lists what happens.
-/

namespace ScriptGate

open Rpc (Request Response Envelope)

variable {σ : Type}

/-- What is seen of the work on a body. -/
inductive Happening where
  /-- A back-end is invoked. -/
  | invoked (caller : Caller) (r : Request)
  /-- The engine of the scripts is entered. -/
  | entered (call : Guest.Call)

def Happening.invocation? : Happening → Option (Caller × Request)
  | .invoked caller r => some (caller, r)
  | .entered _ => none

def Happening.call? : Happening → Option Guest.Call
  | .invoked .. => none
  | .entered call => some call

namespace Backend

/-- A back-end whose invocations are seen. -/
def watched (b : Backend σ) : Backend (σ × List Happening) := fun caller r s =>
  let (ending, last) := b caller r s.1
  (ending, last, s.2 ++ [.invoked caller r])

/-- An engine that is seen to be entered. -/
def Interpreter.watched (i : Interpreter σ) : Interpreter (σ × List Happening) where
  root s := i.root s.1
  tree := i.tree
  run call s :=
    let (outcome, last) := i.run call s.1
    (outcome, last, s.2 ++ [.entered call])

/-- The back-end of the scripts over an engine, both of which are seen. -/
def watchedScripts (i : Interpreter σ) : Backend (σ × List Happening) := fun caller r s =>
  scriptsOver i.watched caller r (s.1, s.2 ++ [.invoked caller r])

/-- What is seen when a request comes to the back-end of the scripts. -/
def Interpreter.entries (i : Interpreter σ) (caller : Caller) (r : Request) (s : σ) :
    List Happening :=
  match scriptCall (i.root s) i.tree caller r with
  | .ok call => [.entered call]
  | .error _ => []

theorem watchedScripts_eq (i : Interpreter σ) (caller : Caller) (r : Request) (s : σ)
    (log : List Happening) : watchedScripts i caller r (s, log) =
      ((scriptsOver i caller r s).1, (scriptsOver i caller r s).2,
        log ++ .invoked caller r :: i.entries caller r s) := by
  simp only [watchedScripts, scriptsOver, Interpreter.watched, Interpreter.entries]
  cases scriptCall (i.root s) i.tree caller r with
  | error e => simp
  | ok call =>
    rcases ran : i.run call s with ⟨_ | answer, last⟩ <;> simp [ran]

end Backend

namespace Gateway

/-- A gateway with the scripts over an engine as one of its back-ends. -/
def withScripts (g : Gateway σ) (version : String) (i : Backend.Interpreter σ) : Gateway σ :=
  g.register version (.scriptsOver i)

/-- The same gateway, of which it is seen what happens. -/
def watched (g : Gateway σ) (version : String) (i : Backend.Interpreter σ) :
    Gateway (σ × List Happening) :=
  (g.map Backend.watched).register version (.watchedScripts i)

/-- What is seen when a back-end is invoked. -/
def happenings (version : String) (i : Backend.Interpreter σ) (caller : Caller) (r : Request)
    (s : σ) : List Happening :=
  .invoked caller r :: if r.contextVersion = version then i.entries caller r s else []

theorem logs_watched (g : Gateway σ) (version : String) (i : Backend.Interpreter σ) :
    Logs (g.watched version i) (g.withScripts version i) (happenings version i) where
  node := rfl
  ttl := rfl
  registered other := by
    rw [watched, withScripts, backend?_register, backend?_register, backend?_map]
    split
    · rfl
    · rw [Option.isSome_map]
  runs r b' b present registered caller s log := by
    rw [watched, backend?_register, backend?_map] at present
    rw [withScripts, backend?_register] at registered
    by_cases same : r.contextVersion = version
    · rw [if_pos same] at present registered
      obtain rfl := Option.some.inj present
      obtain rfl := Option.some.inj registered
      rw [Backend.watchedScripts_eq, happenings, if_pos same]
    · rw [if_neg same] at present registered
      rw [registered] at present
      obtain rfl := Option.some.inj present
      rw [happenings, if_neg same]
      rfl

/-! ### One member -/

/-- The checks of a request at the gateway in order, each with the error for a request that fails
it. -/
def gateChecks (serves : String → Bool) (r : Request) : List (Prop × Rpc.Error) := [
  (r.jsonrpc = Rpc.version, .invalidRequest),
  (serves r.contextVersion = true, .invalidContextVersion)]

def answerTo (r : Request) (response : Json → Response) : List Response :=
  (r.id.map response).toList

def endingResponse (ending : Ending) (id : Json) : Response :=
  match ending with
  | .answered response => response
  | .crashed => .failure id .crashed

def engineResponse (outcome : Option (Except Engine.Fault Answer.Reply)) (id : Json) : Response :=
  match outcome with
  | some (.ok (.result value)) => .success id value
  | some (.ok (.error error)) => .failure id error
  | some (.error _) => .failure id .internalError
  | none => .failure id .crashed

/-- What becomes of a member of a body in a state: what happens, the responses that go out, and the
state that it leaves. -/
inductive Becomes (g : Gateway σ) (version : String) (i : Backend.Interpreter σ)
    (caller : Caller) : Option Request → σ → List Happening → List Response → σ → Prop where
  | noRequest (s : σ) : Becomes g version i caller none s [] [.failure .null .invalidRequest] s
  | refused {r : Request} {e : Rpc.Error} (s : σ) :
      FirstFailure (gateChecks (g.withScripts version i).terms.serves r) (some e) →
      Becomes g version i caller (some r) s [] (answerTo r (.failure · e)) s
  | faulty {r : Request} {e : Rpc.Error} (s : σ) :
      FirstFailure (gateChecks (g.withScripts version i).terms.serves r) none →
      r.contextVersion = version →
      FirstFailure (Backend.scriptChecks (i.root s) i.tree r) (some e) →
      Becomes g version i caller (some r) s [.invoked caller r] (answerTo r (.failure · e)) s
  | entered {r : Request} {parts : List String} (s : σ) :
      FirstFailure (gateChecks (g.withScripts version i).terms.serves r) none →
      r.contextVersion = version →
      FirstFailure (Backend.scriptChecks (i.root s) i.tree r) none →
      Method.Spells parts r.method →
      Becomes g version i caller (some r) s
        [.invoked caller r, .entered (Backend.callOf caller r parts)]
        (answerTo r (engineResponse (i.run (Backend.callOf caller r parts) s).1))
        (i.run (Backend.callOf caller r parts) s).2
  | elsewhere {r : Request} {b : Backend σ} (s : σ) :
      FirstFailure (gateChecks (g.withScripts version i).terms.serves r) none →
      r.contextVersion ≠ version → g.backend? r.contextVersion = some b →
      Becomes g version i caller (some r) s [.invoked caller r]
        (answerTo r (endingResponse (b caller r s).1)) (b caller r s).2

variable {g : Gateway σ} {version : String} {i : Backend.Interpreter σ} {caller : Caller}

theorem firstFailure_gateChecks {serves : String → Bool} {r : Request} (served : Served serves r) :
    FirstFailure (gateChecks serves r) none :=
  .later served.1 (.later served.2 .none)

theorem served_of_firstFailure {serves : String → Bool} {r : Request}
    (passes : FirstFailure (gateChecks serves r) none) : Served serves r := by
  cases passes with
  | later protocol rest =>
    cases rest with
    | later registered => exact ⟨protocol, registered⟩

/-- What a slot with a request comes to when its back-end ends. -/
theorem response?_ofRequest {serves : String → Bool} {r : Request} (served : Served serves r)
    (ending : Ending) : ((Slot.ofRequest serves r).response? (some ending)).toList =
      answerTo r (endingResponse ending) := by
  rw [ofRequest_served served, answerTo]
  cases r.id with
  | none => rfl
  | some id => cases ending <;> rfl

theorem response?_fault (id : Option Json) (e : Rpc.Error) (ending : Option Ending) :
    ((Slot.fault id e).response? ending).toList = (id.map (.failure · e)).toList := by
  cases id <;> rfl

theorem answerTo_congr {r : Request} {one other : Json → Response}
    (same : ∀ id, r.id = some id → one id = other id) : answerTo r one = answerTo r other := by
  cases present : r.id with
  | none => simp [answerTo, present]
  | some id => simp [answerTo, present, same id present]

/-- The back-end of the scripts ends a call as the first check that it fails says, or as the engine
does. -/
theorem becomes_scriptsOver {r : Request} (s : σ)
    (passes : FirstFailure (gateChecks (g.withScripts version i).terms.serves r) none)
    (same : r.contextVersion = version) :
    Becomes g version i caller (some r) s (.invoked caller r :: i.entries caller r s)
      (answerTo r (endingResponse (Backend.scriptsOver i caller r s).1))
      (Backend.scriptsOver i caller r s).2 := by
  rcases Backend.scriptCall_cases (i.root s) i.tree caller r with
    ⟨e, fails, refused⟩ | ⟨parts, holds, spells, called⟩
  · have response : answerTo r (endingResponse (Backend.scriptsOver i caller r s).1) =
        answerTo r (.failure · e) := answerTo_congr fun id present => by
      simp [Backend.scriptsOver, refused, endingResponse, Backend.respond, present]
    have left : (Backend.scriptsOver i caller r s).2 = s := by
      simp [Backend.scriptsOver, refused]
    rw [response, left, Backend.Interpreter.entries, refused]
    exact .faulty s passes same fails
  · have becomes : Becomes g version i caller (some r) s _ _ _ :=
      .entered s passes same holds spells
    rcases ran : i.run (Backend.callOf caller r parts) s with ⟨outcome, last⟩
    have response : answerTo r (endingResponse (Backend.scriptsOver i caller r s).1) =
        answerTo r (engineResponse outcome) := answerTo_congr fun id present => by
      rcases outcome with _ | _ | value | error <;>
        simp [Backend.scriptsOver, called, ran, endingResponse, engineResponse, Backend.respond,
          present]
    have left : (Backend.scriptsOver i caller r s).2 = last := by
      cases outcome <;> simp [Backend.scriptsOver, called, ran]
    rw [ran] at becomes
    rwa [response, left, Backend.Interpreter.entries, called]

/-- What a slot comes to is what becomes of its member. -/
theorem becomes_slot (g : Gateway σ) (version : String) (i : Backend.Interpreter σ)
    (caller : Caller) (m : Option Request) (s : σ) :
    let all := g.withScripts version i
    let slot := Slot.ofMember all.terms.serves m
    let served := slot.backend? all
    Becomes g version i caller m s (served.elim [] fun b => happenings version i caller b.2 s)
      (slot.response? (served.map fun b => (b.1 caller b.2 s).1)).toList
      (served.elim s fun b => (b.1 caller b.2 s).2) := by
  intro all slot served
  cases m with
  | none => exact .noRequest s
  | some r =>
    have unserved (id : Option Json) (e : Rpc.Error)
        (fault : slot = .fault id e) : served = none := by
      simp only [served, fault, Slot.backend?, request?_fault]
      rfl
    -- A slot without a back-end is a fault, whose response is there before anything runs.
    rcases served_cases all.terms.serves r with other | ⟨protocol, absent⟩ | serves
    · have fault : slot = .fault r.id .invalidRequest := ofRequest_otherProtocol other
      rw [unserved _ _ fault, fault, response?_fault]
      exact .refused s (.here other)
    · have fault : slot = .fault r.id .invalidContextVersion := ofRequest_noBackend protocol absent
      rw [unserved _ _ fault, fault, response?_fault]
      exact .refused s (.later protocol (.here (by simp [all, absent])))
    · have passes := firstFailure_gateChecks serves
      have asks : slot.request? = some r := request?_ofMember.mpr ⟨rfl, serves⟩
      obtain ⟨b, registered⟩ := Option.isSome_iff_exists.mp serves.2
      have there : served = some (b, r) := by
        simp only [served, Slot.backend?, asks, Option.bind_some, registered, Option.map_some]
      rw [there, Option.map_some, Option.elim_some, Option.elim_some]
      rw [show slot = Slot.ofRequest all.terms.serves r from rfl, response?_ofRequest serves,
        happenings]
      simp only [all, withScripts, backend?_register] at registered
      by_cases same : r.contextVersion = version
      · rw [if_pos same] at registered ⊢
        obtain rfl := Option.some.inj registered
        exact becomes_scriptsOver s passes same
      · rw [if_neg same] at registered ⊢
        exact .elsewhere s passes same registered

/-- The codes of the errors for a call, in the order of the checks. -/
example (serves : String → Bool) (root : String) (tree : FileTree) (r : Request) :
    (gateChecks serves r ++ Backend.scriptChecks root tree r).map (·.2.code) =
      [-32600, -32010, -32021, -32020, -32601, -32602] := rfl

/-- A request passes all checks of the gateway and of the scripts, whose engine is in a state. -/
structure Enters (g : Gateway σ) (version : String) (i : Backend.Interpreter σ) (r : Request)
    (s : σ) : Prop where
  gate : FirstFailure (gateChecks (g.withScripts version i).terms.serves r) none
  version : r.contextVersion = version
  script : FirstFailure (Backend.scriptChecks (i.root s) i.tree r) none

/-- The engine is entered once with a request that passes all checks, and otherwise not. -/
theorem Becomes.calls {m : Option Request} {s last : σ} {events : List Happening}
    {responses : List Response} (becomes : Becomes g version i caller m s events responses last) :
    (∃ r parts, m = some r ∧ Enters g version i r s ∧ Method.Spells parts r.method ∧
      events.filterMap Happening.call? = [Backend.callOf caller r parts]) ∨
    ((∀ r, m = some r → ¬ Enters g version i r s) ∧ events.filterMap Happening.call? = []) := by
  cases becomes with
  | noRequest => exact .inr ⟨by simp, rfl⟩
  | @refused r e _ fails =>
    refine .inr ⟨fun other same enters => ?_, rfl⟩
    obtain rfl := Option.some.inj same
    exact absurd (enters.gate.unique fails) (by simp)
  | @faulty r e _ passes here fails =>
    refine .inr ⟨fun other same enters => ?_, rfl⟩
    obtain rfl := Option.some.inj same
    exact absurd (enters.script.unique fails) (by simp)
  | @entered r parts _ passes here holds spells =>
    exact .inl ⟨r, parts, rfl, ⟨passes, here, holds⟩, spells, rfl⟩
  | @elsewhere r b _ passes there =>
    refine .inr ⟨fun other same enters => ?_, rfl⟩
    obtain rfl := Option.some.inj same
    exact there enters.version

/-! ### All members -/

/-- What becomes of some members, each in the state that the ones before it leave. -/
inductive BecomeAll (g : Gateway σ) (version : String) (i : Backend.Interpreter σ)
    (caller : Caller) : List (Option Request) → σ → List Happening → List Response → σ → Prop where
  | nil (s : σ) : BecomeAll g version i caller [] s [] [] s
  | cons {m : Option Request} {rest : List (Option Request)} {s next last : σ}
      {events later : List Happening} {responses others : List Response} :
      Becomes g version i caller m s events responses next →
      BecomeAll g version i caller rest next later others last →
      BecomeAll g version i caller (m :: rest) s (events ++ later) (responses ++ others) last

def answers (g : Gateway σ) (caller : Caller) : List Slot → σ → List Response
  | [], _ => []
  | slot :: rest, s =>
    let served := slot.backend? g
    (slot.response? (served.map fun b => (b.1 caller b.2 s).1)).toList ++
      g.answers caller rest (served.elim s fun b => (b.1 caller b.2 s).2)

theorem becomeAll_slots (g : Gateway σ) (version : String) (i : Backend.Interpreter σ)
    (caller : Caller) (ms : List (Option Request)) (s : σ) :
    let all := g.withScripts version i
    let slots := ms.map (Slot.ofMember all.terms.serves)
    BecomeAll g version i caller ms s (all.trail (happenings version i) caller slots s)
      (all.answers caller slots s) (all.serveSlots caller slots s).2 := by
  induction ms generalizing s with
  | nil => exact .nil s
  | cons m rest ih =>
    have first := becomes_slot g version i caller m s
    simp only [List.map_cons, trail, answers, serveSlots]
    dsimp only at first
    cases served : (Slot.ofMember (g.withScripts version i).terms.serves m).backend?
        (g.withScripts version i) with
    | none =>
      rw [served] at first
      exact .cons first (ih s)
    | some b =>
      rw [served] at first
      exact .cons first (ih (b.1 caller b.2 s).2)

/-- The requests among some members that are handed to back-ends. -/
def servedIn (serves : String → Bool) (ms : List (Option Request)) : List Request :=
  ms.filterMap fun m => m.filter fun r => r.jsonrpc = Rpc.version && serves r.contextVersion

theorem servedIn_cons (serves : String → Bool) (m : Option Request) (rest : List (Option Request)) :
    servedIn serves (m :: rest) = servedIn serves [m] ++ servedIn serves rest := by
  rw [servedIn, servedIn, servedIn, ← List.filterMap_append, List.singleton_append]

theorem servedIn_of_refused {serves : String → Bool} {r : Request} {e : Rpc.Error}
    (fails : FirstFailure (gateChecks serves r) (some e)) : servedIn serves [some r] = [] := by
  have unserved : ¬ Served serves r := fun served =>
    absurd ((firstFailure_gateChecks served).unique fails) (by simp)
  simpa [servedIn, Served] using unserved

theorem servedIn_of_passes {serves : String → Bool} {r : Request}
    (passes : FirstFailure (gateChecks serves r) none) : servedIn serves [some r] = [r] := by
  have served := served_of_firstFailure passes
  have kept : ((some r).filter fun r =>
      r.jsonrpc = Rpc.version && serves r.contextVersion) = some r := by
    simp [served.1, served.2]
  rw [servedIn, List.filterMap_cons, kept]
  rfl

theorem Becomes.invocations {m : Option Request} {s last : σ} {events : List Happening}
    {responses : List Response} (becomes : Becomes g version i caller m s events responses last) :
    events.filterMap Happening.invocation? =
      (servedIn (g.withScripts version i).terms.serves [m]).map (caller, ·) := by
  cases becomes with
  | noRequest => rfl
  | refused _ fails => rw [servedIn_of_refused fails]; rfl
  | faulty _ passes | entered _ passes | elsewhere _ passes => rw [servedIn_of_passes passes]; rfl

/-- A back-end is invoked once for each member that is handed to one, and for no other. -/
theorem BecomeAll.invocations {ms : List (Option Request)} {s last : σ}
    {events : List Happening} {responses : List Response}
    (become : BecomeAll g version i caller ms s events responses last) :
    events.filterMap Happening.invocation? =
      (servedIn (g.withScripts version i).terms.serves ms).map (caller, ·) := by
  induction become with
  | nil => rfl
  | cons first _ ih =>
    rw [List.filterMap_append, ih, first.invocations, ← List.map_append, ← servedIn_cons]

/-! ### The reply -/

/-- The reply with these responses to a body that has members. -/
def replyWith : Envelope → List Response → Reply
  | .single _, [response] => .single response
  | .single _, _ => .empty
  | .batch _, responses => .batch responses

theorem filterMap_zipIdx_answers {endings : Nat → Option Ending} {slots : List Slot} {s : σ}
    (k : Nat) (ended : ∀ j slot, slots[j]? = some slot → endings (k + j) =
      (slot.backend? g).map fun b =>
        (b.1 caller b.2 (g.serveSlots caller (slots.take j) s).2).1) :
    (slots.zipIdx k).filterMap (fun (slot, j) => slot.response? (endings j)) =
      g.answers caller slots s := by
  induction slots generalizing k s with
  | nil => rfl
  | cons slot rest ih =>
    have first := ended 0 slot rfl
    -- Behind the first slot all places are one further, and the state is the one that it leaves.
    have tail : ∀ j next, rest[j]? = some next → endings (k + 1 + j) =
        (next.backend? g).map fun b => (b.1 caller b.2 (g.serveSlots caller (rest.take j)
          ((slot.backend? g).elim s fun b => (b.1 caller b.2 s).2)).2).1 := by
      intro j next at_j
      have there := ended (j + 1) next at_j
      rw [show k + (j + 1) = k + 1 + j by omega, List.take_succ_cons, serveSlots] at there
      rw [there]
      cases slot.backend? g <;> rfl
    rw [List.zipIdx_cons, answers, ← ih (k + 1) tail]
    rw [Nat.add_zero, List.take_zero, serveSlots] at first
    simp only [List.filterMap_cons, first]
    split <;> simp_all

theorem ending?_served {x : Exchange} (s : σ) {j : Nat} {slot : Slot}
    (at_j : x.plan.slots[j]? = some slot) : (x.served g s).ending? j =
      (slot.backend? g).map fun b =>
        (b.1 x.caller b.2 (g.serveSlots x.caller (x.plan.slots.take j) s).2).1 := by
  have stands : (x.served g s).progress? j = _ := getElem?_serveSlots s at_j
  rw [Exchange.ending?, stands]
  cases slot.backend? g <;> rfl

theorem reply_ofEnvelope {serves : String → Bool} {e : Envelope} (nonempty : e ≠ .batch [])
    (endings : Nat → Option Ending) : (Plan.ofEnvelope serves e).reply endings =
      replyWith e ((e.members.map (Slot.ofMember serves)).zipIdx.filterMap
        fun (slot, j) => slot.response? (endings j)) := by
  cases e with
  | single r =>
    simp only [Envelope.members, List.map_cons, List.map_nil, List.zipIdx_cons, List.zipIdx_nil,
      List.filterMap_cons, List.filterMap_nil, Plan.ofEnvelope, Plan.reply, Slot.ofMember]
    cases (Slot.ofRequest serves r).response? (endings 0) <;> rfl
  | batch members =>
    cases members with
    | nil => exact absurd rfl nonempty
    | cons => rfl

/-- The reply of an exchange all of whose back-ends have run. -/
theorem reply_served {e : Envelope} (nonempty : e ≠ .batch []) {x : Exchange}
    (plan : x.plan = .ofEnvelope g.terms.serves e) (s : σ) :
    x.plan.reply (x.served g s).ending? =
      replyWith e (g.answers x.caller (e.members.map (Slot.ofMember g.terms.serves)) s) := by
  have slots : x.plan.slots = e.members.map (Slot.ofMember g.terms.serves) := by
    rw [plan, slots_ofEnvelope]
  rw [plan, reply_ofEnvelope nonempty, filterMap_zipIdx_answers 0 fun j slot at_j => ?_]
  rw [Nat.zero_add, ← slots]
  exact ending?_served s (slots ▸ at_j)

/-! ### At the door -/

/-- The checks of a body at the door in order, each with the status and the error for a body that
fails it. -/
def doorChecks (sessions : Session.Registry) (id : String) (expiry : Option Time.Instant)
    (body : Option Bytes) : List (Prop × Http.Status × Rpc.Error) := [
  (id ∉ sessions.ids, Http.ok, .sessionBusy),
  (∃ instant, expiry = some instant, Http.internalServerError, .internalError),
  (∃ bytes, body = some bytes, Http.badRequest, .internalError),
  (∃ bytes e, body = some bytes ∧ Envelope.parse bytes = .ok e, Http.badRequest, .parseError),
  (∀ bytes, body = some bytes → Envelope.parse bytes ≠ .ok (.batch []), Http.ok, .invalidRequest)]

theorem ofBody_cases (serves : String → Bool) (body : Option Bytes) :
    (body = none ∧ Plan.ofBody serves body = .refused Http.badRequest .internalError) ∨
    ∃ bytes, body = some bytes ∧
      ((¬ (∃ e, Envelope.parse bytes = .ok e) ∧
          Plan.ofBody serves body = .refused Http.badRequest .parseError) ∨
        ∃ e, Envelope.parse bytes = .ok e ∧ Plan.ofBody serves body = .ofEnvelope serves e) := by
  cases body with
  | none => exact .inl ⟨rfl, rfl⟩
  | some bytes =>
    refine .inr ⟨bytes, rfl, ?_⟩
    cases parses : Envelope.parse bytes with
    | error fault => exact .inl ⟨by simp, by simp [Plan.ofBody, parses]⟩
    | ok e => exact .inr ⟨e, rfl, by simp [Plan.ofBody, parses]⟩

theorem status_ofEnvelope {serves : String → Bool} {e : Envelope} (nonempty : e ≠ .batch []) :
    (Plan.ofEnvelope serves e).status = Http.ok := by
  cases e with
  | single r => rfl
  | batch members =>
    cases members with
    | nil => exact absurd rfl nonempty
    | cons => rfl

/-- A body is turned away by the first check that it fails, or its members are served. -/
theorem door_cases (g : Gateway σ) (sessions : Session.Registry) (caller : Caller)
    (body : Option Bytes) (now : Time.Instant) :
    let checks := doorChecks sessions caller.session (now.add? g.ttl) body
    let x := g.opening sessions caller body now
    (∃ status error, FirstFailure checks (some (status, error)) ∧
      x.plan = .refused status error ∧
      (x.stage = .aborted → status = Http.internalServerError ∧ error = .internalError)) ∨
    (FirstFailure checks none ∧ ∃ bytes e, body = some bytes ∧ Envelope.parse bytes = .ok e ∧
      e ≠ .batch [] ∧ x = .admitted caller (.ofEnvelope g.terms.serves e)) := by
  intro checks x
  rcases g.opening_cases sessions caller body now with
    ⟨held, opened⟩ | ⟨free, expires, opened⟩ | ⟨free, endless, opened⟩
  · refine .inl ⟨_, _, .here (not_not.mpr held), congrArg Exchange.plan opened, ?_⟩
    simp [x, opened, Exchange.busy]
  · have plan : x.plan = .ofBody g.terms.serves body := congrArg Exchange.plan opened
    have underway : x.stage = .underway := congrArg Exchange.stage opened
    have turned (status : Http.Status) (error : Rpc.Error)
        (fails : FirstFailure checks (some (status, error)))
        (refused : Plan.ofBody g.terms.serves body = .refused status error) :
        ∃ status error, FirstFailure checks (some (status, error)) ∧
          x.plan = .refused status error ∧
          (x.stage = .aborted → status = Http.internalServerError ∧ error = .internalError) :=
      ⟨status, error, fails, plan.trans refused, by simp [underway]⟩
    rcases ofBody_cases g.terms.serves body with ⟨unread, refused⟩ | ⟨bytes, read, parses⟩
    · refine .inl (turned _ _ (.later free (.later expires (.here ?_))) refused)
      simp [unread]
    · have passes {verdict} (rest : FirstFailure (checks.drop 3) verdict) :
          FirstFailure checks verdict :=
        .later free (.later expires (.later ⟨bytes, read⟩ rest))
      rcases parses with ⟨faulty, refused⟩ | ⟨e, parses, planned⟩
      · refine .inl (turned _ _ (passes (.here ?_)) refused)
        rintro ⟨others, e, same, parses⟩
        obtain rfl := Option.some.inj (read.symm.trans same)
        exact faulty ⟨e, parses⟩
      · by_cases empty : e = .batch []
        · refine .inl (turned _ _ (passes (.later ⟨bytes, e, read, parses⟩ (.here ?_))) ?_)
          · exact fun holds => holds bytes read (empty ▸ parses)
          · rw [planned, empty]
            rfl
        · refine .inr ⟨passes (.later ⟨bytes, e, read, parses⟩ (.later ?_ .none)),
            bytes, e, read, parses, empty, ?_⟩
          · intro others same also
            obtain rfl := Option.some.inj (read.symm.trans same)
            exact empty (Except.ok.inj (parses.symm.trans also))
          · rw [← planned]
            exact opened
  · refine .inl ⟨_, _, .later free (.here (by simp [endless])), congrArg Exchange.plan opened, ?_⟩
    exact fun _ => ⟨rfl, rfl⟩

/-- The statuses and the codes for a body, in the order of the checks. -/
example (sessions : Session.Registry) (id : String) (expiry : Option Time.Instant)
    (body : Option Bytes) :
    (doorChecks sessions id expiry body).map (fun check => (check.2.1, check.2.2.code)) =
      [(200, -32030), (500, -32603), (400, -32603), (400, -32700), (200, -32600)] := rfl

end Gateway

end ScriptGate
