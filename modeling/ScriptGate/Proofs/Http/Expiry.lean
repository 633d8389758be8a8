import ScriptGate.Proofs.Cli
import ScriptGate.Proofs.Http.Handling

/-!
# Expiries that the clock cannot show

A session expires a time to live after its admission. Validation asks for a time to live above
zero and sets no bound on it, so on an accepted configuration the expiry may lie past the last
reading of the clock. A request for a free session then comes to an abrupt end at the door, which
no other request does.
-/

namespace ScriptGate

open Time (Instant Span)

namespace Session.Registry

variable {ttl : Span}

/-- Admission never overflows up to a reading if the time to live fits behind that reading. -/
theorem acquire_within_iff {bound : Instant} :
    (∀ (r : Registry) (id : String) (now : Instant), now.le bound = true →
      r.acquire id now ttl ≠ .overflow) ↔ bound.total + ttl.total ≤ Instant.last.total := by
  constructor
  · intro never
    refine Int.not_lt.mp fun late => ?_
    have overflow : ({} : Registry).acquire "" bound ttl = .overflow :=
      acquire_overflow_iff.mpr ⟨List.not_mem_nil, late⟩
    exact never {} "" bound (Instant.le_iff.mpr (Int.le_refl _)) overflow
  · intro fits r id now early overflow
    have late := (acquire_overflow_iff.mp overflow).2
    have before := Instant.le_iff.mp early
    omega

end Session.Registry

namespace Config

variable {c : Config}

theorem ttl_pos_of_accepted (accepted : c.validate = .ok ()) : c.sessionTtl.isZero = false := by
  unfold validate at accepted
  split at accepted
  · cases accepted
  · split at accepted
    · cases accepted
    · split at accepted
      · cases accepted
      · rename_i lasting
        simpa using lasting

/-- Any other time to live is accepted as well, unless it is zero. -/
theorem validate_ttl_iff (accepted : c.validate = .ok ()) (ttl : Span) :
    { c with sessionTtl := ttl }.validate = .ok () ↔ ttl.isZero = false := by
  refine ⟨ttl_pos_of_accepted, fun lasting => ?_⟩
  have lasted := ttl_pos_of_accepted accepted
  rw [← accepted]
  simp only [validate, lasting, lasted]

end Config

namespace Gateway

theorem Plan.status_ofBody (serves : String → Bool) (body : Option Bytes) :
    (Plan.ofBody serves body).status ≠ Http.internalServerError := by
  unfold Plan.ofBody
  cases body with
  | none => simp [Plan.status, Http.badRequest, Http.internalServerError]
  | some body =>
    dsimp only
    cases Rpc.Envelope.parse body with
    | error fault => simp [Plan.status, Http.badRequest, Http.internalServerError]
    | ok envelope =>
      rcases envelope with request | ⟨_ | ⟨member, members⟩⟩ <;>
        simp [Plan.ofEnvelope, Plan.status, Http.ok, Http.internalServerError]

end Gateway

namespace Http.Server

variable {σ : Type} {v : Server σ} {s : Gateway.State σ} {r : Request}
  {peer : Option Net.SocketAddress} {now : Instant} {d : Draw}

/-- A request for a session that is not held and whose expiry the clock cannot show. -/
def Founders (v : Server σ) (held : List String) (r : Request) (peer : Option Net.SocketAddress)
    (now : Instant) (d : Draw) : Prop :=
  r.path = v.route ∧ r.method = "POST" ∧ (r.caller peer d.session).session ∉ held ∧
    Instant.last.total < now.total + v.gateway.ttl.total

theorem sessions_handle (v : Server σ) (s : Gateway.State σ) (r : Request)
    (peer : Option Net.SocketAddress) (now : Instant) (d : Draw) :
    (v.handle s r peer now d).2.traffic.sessions = s.traffic.sessions := by
  by_cases here : r.path = v.route
  · by_cases post : r.method = "POST"
    · rw [handle_post here post]
    · rw [handle_not_post here post]
  · rw [handle_elsewhere here]

/-- No slot is served and there is nothing to answer with. -/
theorem handle_of_founders (founders : v.Founders s.traffic.sessions.ids r peer now d) :
    (v.handle s r peer now d).1 =
        refusal internalServerError .internalError v.gateway.node (r.caller peer d.session) d ∧
      (v.handle s r peer now d).2.shared = s.shared := by
  obtain ⟨here, post, free, late⟩ := founders
  have opened : v.opening s.traffic r peer now d = .aborted (r.caller peer d.session) := by
    rw [opening, Gateway.opening, Session.Registry.acquire_overflow_iff.mpr ⟨free, late⟩]
  have nothing : (((Gateway.Exchange.aborted (r.caller peer d.session)).served v.gateway
      s.shared).conclude v.gateway.node d.salt).outcome? = none :=
    Gateway.Exchange.outcome?_of_aborted v.gateway.node rfl
  rw [handle_post here post, opened]
  simp only [answerOf, nothing, Gateway.Exchange.conclude_caller]
  exact ⟨rfl, rfl⟩

theorem status_of_not_founders (keeps : ¬ v.Founders s.traffic.sessions.ids r peer now d) :
    (v.handle s r peer now d).1.status ≠ internalServerError := by
  by_cases here : r.path = v.route
  · by_cases post : r.method = "POST"
    · have underway : (v.opening s.traffic r peer now d).stage = .underway ∧
          (v.opening s.traffic r peer now d).plan.status ≠ internalServerError := by
        rw [opening]
        rcases v.gateway.opening_cases s.traffic.sessions (r.caller peer d.session) (v.bodyOf r)
          now with ⟨-, opened⟩ | ⟨-, -, opened⟩ | ⟨free, late, -⟩
        · rw [opened]
          exact ⟨rfl, (by decide : ok ≠ internalServerError)⟩
        · rw [opened]
          exact ⟨rfl, Gateway.Plan.status_ofBody _ _⟩
        · exact absurd ⟨here, post, free, Instant.add?_eq_none_iff.mp late⟩ keeps
      have outcome := @Gateway.Exchange.outcome?_conclude d.salt
        ((v.opening s.traffic r peer now d).served v.gateway s.shared) v.gateway.node underway.1
      rw [handle_post here post]
      simp only [answerOf, outcome]
      exact underway.2
    · rw [handle_not_post here post]
      exact (by decide : methodNotAllowed ≠ internalServerError)
  · rw [handle_elsewhere here]
    exact (by decide : notFound ≠ internalServerError)

/-! ### Requests one after the other -/

/-- A request as it arrives: from where, when, and with what is drawn for it. -/
structure Arrival where
  request : Request
  peer : Option Net.SocketAddress
  now : Instant
  draw : Draw

/-- The answers to requests, each of which arrives when the one before has its answer. -/
def answers (v : Server σ) : Gateway.State σ → List Arrival → List Answer
  | _, [] => []
  | s, a :: later =>
    let (answer, next) := v.handle s a.request a.peer a.now a.draw
    answer :: v.answers next later

/-- The sessions that others hold stay as they are, so each request meets them as the first does. -/
theorem answers_cases (v : Server σ) (s : Gateway.State σ) (arrivals : List Arrival) :
    List.Forall₂
      (fun a answer =>
        (v.Founders s.traffic.sessions.ids a.request a.peer a.now a.draw ∧
          answer = refusal internalServerError .internalError v.gateway.node
            (a.request.caller a.peer a.draw.session) a.draw) ∨
        (¬ v.Founders s.traffic.sessions.ids a.request a.peer a.now a.draw ∧
          answer.status ≠ internalServerError))
      arrivals (v.answers s arrivals) := by
  induction arrivals generalizing s with
  | nil => exact .nil
  | cons a later ih =>
    have rest := ih (v.handle s a.request a.peer a.now a.draw).2
    rw [sessions_handle] at rest
    refine .cons ?_ rest
    by_cases founders : v.Founders s.traffic.sessions.ids a.request a.peer a.now a.draw
    · exact .inl ⟨founders, (handle_of_founders founders).1⟩
    · exact .inr ⟨founders, status_of_not_founders founders⟩

end Http.Server

/-! ### Accepted configurations -/

/-- On an accepted configuration a free session is admitted with exactly its time to live ahead of
it, unless that leads past the last reading of the clock. -/
theorem Config.admission_of_accepted {c : Config} (accepted : c.validate = .ok ()) :
    (∀ (r : Session.Registry) (id : String) (now : Instant), id ∉ r.ids →
      if now.total + c.sessionTtl.total ≤ Instant.last.total then
        ∃ expiry, r.acquire id now c.sessionTtl = .admitted ⟨(id, expiry) :: r.entries⟩ ∧
          expiry.total = now.total + c.sessionTtl.total ∧ expiry.le now = false
      else r.acquire id now c.sessionTtl = .overflow) ∧
    (∀ bound : Instant,
      (∀ (r : Session.Registry) (id : String) (now : Instant), now.le bound = true →
        r.acquire id now c.sessionTtl ≠ .overflow) ↔
          bound.total + c.sessionTtl.total ≤ Instant.last.total) ∧
    (∀ ttl : Span, { c with sessionTtl := ttl }.validate = .ok () ↔ ttl.isZero = false) ∧
    ∀ (σ : Type) (backends : List (String × Backend σ)) (s : Gateway.State σ)
      (arrivals : List Http.Server.Arrival),
      let v := Http.Server.ofConfig c backends
      List.Forall₂
        (fun a answer =>
          (v.Founders s.traffic.sessions.ids a.request a.peer a.now a.draw ∧
            answer = Http.Server.refusal Http.internalServerError .internalError c.nodeId
              (a.request.caller a.peer a.draw.session) a.draw) ∨
          (¬ v.Founders s.traffic.sessions.ids a.request a.peer a.now a.draw ∧
            answer.status ≠ Http.internalServerError))
        arrivals (v.answers s arrivals) := by
  refine ⟨fun r id now free => ?_, fun bound => Session.Registry.acquire_within_iff,
    validate_ttl_iff accepted, fun σ backends s arrivals =>
      Http.Server.answers_cases (.ofConfig c backends) s arrivals⟩
  split
  · rename_i fits
    obtain ⟨expiry, sum⟩ := Option.ne_none_iff_exists'.mp fun none =>
      Int.not_lt.mpr fits (Instant.add?_eq_none_iff.mp none)
    have total := Instant.add?_eq_some_iff.mp sum
    have lasting := Span.total_pos_iff.mpr (ttl_pos_of_accepted accepted)
    have later : expiry.le now = false := by
      rw [← Bool.not_eq_true, Instant.le_iff]
      omega
    exact ⟨expiry, Session.Registry.acquire_admitted_iff.mpr ⟨free, expiry, sum, rfl⟩, total, later⟩
  · rename_i late
    exact Session.Registry.acquire_overflow_iff.mpr ⟨free, Int.not_le.mp late⟩

namespace Cli.Serve

/-- The longest time to live that can be asked for. -/
def endless : Config := configTtl 18446744073709551615 "n"

theorem endless_accepted : endless.validate = .ok () := validate_configTtl (by decide) (by decide)

def start : Instant where
  seconds := 0
  nanos := 0
  nanos_lt := Time.nanosPerSecond_pos

theorem admission_of_endless :
    endless.validate = .ok () ∧
      ({} : Session.Registry).acquire "s" start endless.sessionTtl = .overflow := by
  have admission := (Config.admission_of_accepted endless_accepted).1 {} "s" start List.not_mem_nil
  rw [if_neg (by decide)] at admission
  exact ⟨endless_accepted, admission⟩

/-- The command line takes the longest time to live, validation accepts it, and no clock that counts
up from zero can show an expiry. -/
theorem endless_never_admits :
    task ["serve", "--session-ttl-secs", "18446744073709551615"] none "n" = .serve endless ∧
      endless.validate = .ok () ∧
      ∀ (r : Session.Registry) (id : String) (now : Instant), 0 ≤ now.seconds → id ∉ r.ids →
        r.acquire id now endless.sessionTtl = .overflow := by
  refine ⟨task_ttl (by decide : (18446744073709551615 : UInt64) ≠ 0) (by decide), endless_accepted,
    fun r id now started free => Session.Registry.acquire_overflow_iff.mpr ⟨free, ?_⟩⟩
  have ttl : endless.sessionTtl.total = 18446744073709551615 * 1000000000 := by decide
  have limit : Instant.last.total = 9223372036854775807 * 1000000000 + 999999999 := by decide
  have reading : now.total = now.seconds * 1000000000 + now.nanos := rfl
  omega

end Cli.Serve

end ScriptGate
