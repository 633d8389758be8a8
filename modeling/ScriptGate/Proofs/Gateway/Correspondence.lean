import Mathlib.Data.List.Forall2
import ScriptGate.Proofs.Gateway.Steps

/-!
# Which member an answer belongs to

A reply answers the members of a body that are not notifications, one by one and in their order,
each under the id of the member. `Corresponds` says so, `Plan.reply_corresponds` shows it for any
endings that back-ends come to, and `Tracks` is what a run keeps of an exchange from its arrival on,
in whatever order its slots start, end and crash.
-/

namespace ScriptGate

/-! ### The members of a body -/

namespace Rpc

/-- The members of a body; nothing where a slot holds no request. -/
def Envelope.members : Envelope → List (Option Request)
  | .single r => [some r]
  | .batch slots => slots

def memberId (m : Option Request) : Json := (m.bind (·.id)).getD .null

/-- Whether a member is to be answered: all are but notifications. -/
def isAsked (m : Option Request) : Bool := m.all fun r => !r.isNotification

/-- The members that are to be answered, each with its place in the body. -/
def Envelope.asked (e : Envelope) : List (Option Request × Nat) :=
  e.members.zipIdx.filter fun m => isAsked m.1

def Response.bare (r : Response) : Response := { r with data := none }

@[simp] theorem Response.bare_stamp (r : Response) (node salt : String)
    (newSession : Option String) : (r.stamp node salt newSession).bare = r.bare := rfl

end Rpc

/-- A back-end answers a call under the id of the call, if it does not crash. -/
def Backend.KeepsIds {σ : Type} (b : Backend σ) : Prop :=
  ∀ caller r s response, (b caller r s).1 = .answered response →
    ∀ id, r.id = some id → response.id = id

theorem Backend.keepsIds_scripts (t : FileTree) (now : Int) : (scripts t now).KeepsIds := by
  have responds (r : Rpc.Request) (answer) : (respond r answer).id = r.id.getD .null := by
    unfold respond
    split <;> rfl
  intro caller r g response answers id present
  have own : response.id = r.id.getD .null := by
    unfold scripts at answers
    split at answers
    · exact Ending.answered.inj answers ▸ responds ..
    · exact Ending.answered.inj answers ▸ responds ..
  rw [own, present, Option.getD_some]

namespace Gateway

open Rpc (Envelope Request Response memberId isAsked)

variable {serves : String → Bool} {endings : Nat → Option Ending}

/-! ### What is an answer -/

/-- A member is handed to a back-end. -/
def Served (serves : String → Bool) (r : Request) : Prop :=
  r.jsonrpc = Rpc.version ∧ serves r.contextVersion = true

/-- The answer to a member, given how its back-end has ended: an error where no back-end hears of
it, what the back-end has answered, and the crash error where it has crashed. -/
inductive Answers (serves : String → Bool) :
    Option Request → Option Ending → Response → Prop where
  | noRequest (ending : Option Ending) :
      Answers serves none ending (.failure .null .invalidRequest)
  | otherProtocol {r : Request} {id : Json} (ending : Option Ending) : r.id = some id →
      r.jsonrpc ≠ Rpc.version → Answers serves (some r) ending (.failure id .invalidRequest)
  | noBackend {r : Request} {id : Json} (ending : Option Ending) : r.id = some id →
      r.jsonrpc = Rpc.version → serves r.contextVersion = false →
      Answers serves (some r) ending (.failure id .invalidContextVersion)
  | answered {r : Request} {id : Json} (response : Response) : r.id = some id → Served serves r →
      Answers serves (some r) (some (.answered response)) response
  | crashed {r : Request} {id : Json} : r.id = some id → Served serves r →
      Answers serves (some r) (some .crashed) (.failure id .crashed)

/-- A reply, before it is stamped, answers a body: a call is answered and a notification is not, an
empty batch is refused, and the answers of any other batch are those of its members that are to be
answered, in order. Every answer carries the id of its member. -/
inductive Corresponds (serves : String → Bool) (endings : Nat → Option Ending) :
    Envelope → Reply → Prop where
  | call (r : Request) {response : Response} : r.isNotification = false →
      Answers serves (some r) (endings 0) response → response.id = memberId (some r) →
      Corresponds serves endings (.single r) (.single response)
  | notification (r : Request) : r.isNotification = true →
      Corresponds serves endings (.single r) .empty
  | emptyBatch :
      Corresponds serves endings (.batch []) (.single (.failure .null .invalidRequest))
  | batch {members : List (Option Request)} {responses : List Response} : members ≠ [] →
      List.Forall₂
        (fun m response => Answers serves m.1 (endings m.2) response ∧ response.id = memberId m.1)
        (Envelope.batch members).asked responses →
      Corresponds serves endings (.batch members) (.batch responses)

/-! ### What plans reply -/

theorem slots_ofEnvelope (serves : String → Bool) (e : Envelope) :
    (Plan.ofEnvelope serves e).slots = e.members.map (Slot.ofMember serves) := by
  unfold Plan.ofEnvelope
  split <;> rfl

/-- What becomes of a request: it speaks another protocol, has no back-end, or is served. -/
theorem served_cases (serves : String → Bool) (r : Request) :
    r.jsonrpc ≠ Rpc.version ∨ (r.jsonrpc = Rpc.version ∧ serves r.contextVersion = false) ∨
      Served serves r := by
  by_cases protocol : r.jsonrpc = Rpc.version
  · cases backend : serves r.contextVersion with
    | false => exact .inr (.inl ⟨protocol, rfl⟩)
    | true => exact .inr (.inr ⟨protocol, backend⟩)
  · exact .inl protocol

theorem ofRequest_otherProtocol {r : Request} (other : r.jsonrpc ≠ Rpc.version) :
    Slot.ofRequest serves r = Slot.fault r.id .invalidRequest := by
  simp [Slot.ofRequest, other]

theorem ofRequest_noBackend {r : Request} (protocol : r.jsonrpc = Rpc.version)
    (none_serves : serves r.contextVersion = false) :
    Slot.ofRequest serves r = Slot.fault r.id .invalidContextVersion := by
  simp [Slot.ofRequest, protocol, none_serves]

theorem ofRequest_served {r : Request} (served : Served serves r) :
    Slot.ofRequest serves r = r.id.elim (.notification r) (.call · r) := by
  cases present : r.id <;> simp [Slot.ofRequest, served.1, served.2, present]

theorem request?_fault (id : Option Json) (error : Rpc.Error) :
    (Slot.fault id error).request? = none := by cases id <;> rfl

theorem request?_ofMember {m : Option Request} {r : Request} :
    (Slot.ofMember serves m).request? = some r ↔ m = some r ∧ Served serves r := by
  cases m with
  | none => simp [Slot.ofMember, Slot.request?]
  | some asked =>
    rcases served_cases serves asked with other | ⟨protocol, none_serves⟩ | served
    · rw [Slot.ofMember, ofRequest_otherProtocol other, request?_fault, Option.some_inj]
      constructor
      · intro asks
        cases asks
      · rintro ⟨rfl, served⟩
        exact absurd served.1 other
    · rw [Slot.ofMember, ofRequest_noBackend protocol none_serves, request?_fault, Option.some_inj]
      constructor
      · intro asks
        cases asks
      · rintro ⟨rfl, served⟩
        exact absurd (none_serves.symm.trans served.2) (by simp)
    · have same : (Slot.ofMember serves (some asked)).request? = some asked := by
        rw [Slot.ofMember, ofRequest_served served]
        cases asked.id <;> rfl
      rw [same, Option.some_inj]
      constructor
      · rintro rfl
        exact ⟨rfl, served⟩
      · exact fun also => also.1

theorem isAwaited_ofMember {m : Option Request} :
    (Slot.ofMember serves m).isAwaited = true ↔
      ∃ r id, m = some r ∧ r.id = some id ∧ Served serves r := by
  constructor
  · intro awaited
    obtain ⟨r, asks⟩ : ∃ r, (Slot.ofMember serves m).request? = some r := by
      cases slot : Slot.ofMember serves m <;> simp_all [Slot.isAwaited, Slot.request?]
    obtain ⟨rfl, served⟩ := request?_ofMember.mp asks
    rw [Slot.ofMember, ofRequest_served served] at awaited
    cases present : r.id with
    | none => simp [present, Slot.isAwaited] at awaited
    | some id => exact ⟨r, id, rfl, present, served⟩
  · rintro ⟨r, id, rfl, present, served⟩
    rw [Slot.ofMember, ofRequest_served served, present]
    rfl

theorem response?_of_isAsked {m : Option Request} {ending : Option Ending}
    (asked : isAsked m = true)
    (ended : (Slot.ofMember serves m).isAwaited = true → ending.isSome = true) :
    ∃ response, (Slot.ofMember serves m).response? ending = some response ∧
      Answers serves m ending response := by
  cases m with
  | none => exact ⟨_, rfl, .noRequest ending⟩
  | some r =>
    obtain ⟨id, present⟩ : ∃ id, r.id = some id := by
      simpa [isAsked, Request.isNotification, Option.isSome_iff_exists] using asked
    rcases served_cases serves r with other | ⟨protocol, none_serves⟩ | served
    · refine ⟨_, ?_, .otherProtocol ending present other⟩
      rw [Slot.ofMember, ofRequest_otherProtocol other, present]
      rfl
    · refine ⟨_, ?_, .noBackend ending present protocol none_serves⟩
      rw [Slot.ofMember, ofRequest_noBackend protocol none_serves, present]
      rfl
    · have slot : Slot.ofMember serves (some r) = .call id r := by
        rw [Slot.ofMember, ofRequest_served served, present]
        rfl
      rw [slot] at ended ⊢
      obtain ⟨ending, rfl⟩ := Option.isSome_iff_exists.mp (ended rfl)
      cases ending with
      | answered response => exact ⟨response, rfl, .answered response present served⟩
      | crashed => exact ⟨_, rfl, .crashed present served⟩

theorem response?_of_notification {m : Option Request} (silent : isAsked m = false)
    (ending : Option Ending) : (Slot.ofMember serves m).response? ending = none := by
  obtain ⟨r, rfl, absent⟩ : ∃ r, m = some r ∧ r.id = none := by
    cases m with
    | none => simp [isAsked] at silent
    | some r => exact ⟨r, rfl, by simpa [isAsked, Request.isNotification] using silent⟩
  rcases served_cases serves r with other | ⟨protocol, none_serves⟩ | served
  · rw [Slot.ofMember, ofRequest_otherProtocol other, absent]
    rfl
  · rw [Slot.ofMember, ofRequest_noBackend protocol none_serves, absent]
    rfl
  · rw [Slot.ofMember, ofRequest_served served, absent]
    rfl

theorem Answers.unique {m : Option Request} {ending : Option Ending} {r s : Response}
    (one : Answers serves m ending r) (other : Answers serves m ending s) : r = s := by
  cases one <;> cases other <;> simp_all [Served]

theorem Answers.of_crashed {m : Option Request} {r : Request} {response : Response}
    (answers : Answers serves m (some .crashed) response)
    (asks : (Slot.ofMember serves m).request? = some r) :
    response = .failure (memberId m) .crashed := by
  obtain ⟨rfl, served⟩ := request?_ofMember.mp asks
  cases answers with
  | otherProtocol _ _ other => exact absurd served.1 other
  | noBackend _ _ _ none_serves => exact absurd (none_serves.symm.trans served.2) (by simp)
  | crashed present => simp [memberId, present]

/-- An answer carries the id of its member if back-ends answer under the ids of their calls. -/
theorem Answers.id_eq {m : Option Request} {ending : Option Ending} {response : Response}
    (answers : Answers serves m ending response)
    (own : ∀ answer r id, ending = some (.answered answer) → m = some r → r.id = some id →
      answer.id = id) : response.id = memberId m := by
  cases answers with
  | noRequest => rfl
  | otherProtocol _ present | noBackend _ present | crashed present =>
    simp [memberId, present, Response.failure]
  | answered response present => simp [memberId, present, own _ _ _ rfl rfl present]

/-- What is kept of a list is related, one by one, to what comes out of it. -/
theorem forall₂_filter_filterMap {α β : Type} {R : α → β → Prop} {keep : α → Bool}
    {f : α → Option β} {l : List α}
    (kept : ∀ a ∈ l, keep a = true → ∃ b, f a = some b ∧ R a b)
    (dropped : ∀ a ∈ l, keep a = false → f a = none) :
    List.Forall₂ R (l.filter keep) (l.filterMap f) := by
  induction l with
  | nil => exact .nil
  | cons a rest ih =>
    have tail := ih (fun b member => kept b (by simp [member]))
      fun b member => dropped b (by simp [member])
    cases keeps : keep a with
    | true =>
      obtain ⟨b, found, related⟩ := kept a (by simp) keeps
      rw [List.filter_cons_of_pos keeps, List.filterMap_cons_some found]
      exact .cons related tail
    | false =>
      rw [List.filter_cons_of_neg (by simp [keeps]),
        List.filterMap_cons_none (dropped a (by simp) keeps)]
      exact tail

/-- The reply to a body whose awaited slots have ended answers its members. -/
theorem Plan.reply_corresponds (e : Envelope)
    (ended : ∀ i m, e.members[i]? = some m → (Slot.ofMember serves m).isAwaited = true →
      (endings i).isSome = true)
    (own : ∀ i answer r id, endings i = some (.answered answer) → e.members[i]? = some (some r) →
      r.id = some id → answer.id = id) :
    Corresponds serves endings e ((Plan.ofEnvelope serves e).reply endings) := by
  cases e with
  | single r =>
    have slot : Plan.ofEnvelope serves (.single r) = .single (Slot.ofMember serves (some r)) := rfl
    rw [slot, Plan.reply]
    cases silent : r.isNotification with
    | true =>
      rw [response?_of_notification (by simp [isAsked, silent])]
      exact .notification r silent
    | false =>
      obtain ⟨response, goes_out, answers⟩ :=
        response?_of_isAsked (by simp [isAsked, silent]) (ended 0 (some r) rfl)
      rw [goes_out]
      refine .call r silent answers (answers.id_eq fun answer r' id ending same present => ?_)
      exact own 0 answer r' id ending (same ▸ rfl) present
  | batch members =>
    cases members with
    | nil => exact .emptyBatch
    | cons first rest =>
      refine .batch (by simp) ?_
      rw [List.zipIdx_map, List.filterMap_map]
      refine forall₂_filter_filterMap ?_ ?_
      · rintro ⟨m, i⟩ inside asked
        have at_i := List.mk_mem_zipIdx_iff_getElem?.mp inside
        obtain ⟨response, goes_out, answers⟩ := response?_of_isAsked asked (ended i m at_i)
        refine ⟨response, goes_out, answers, answers.id_eq ?_⟩
        exact fun answer r id ending same present => own i answer r id ending (same ▸ at_i) present
      · rintro ⟨m, i⟩ - silent
        exact response?_of_notification silent (endings i)

/-! ### Replies that are settled -/

theorem Slot.response?_congr {slot : Slot} {first second : Option Ending}
    (same : slot.isAwaited = true → second = first) :
    slot.response? second = slot.response? first := by
  cases slot with
  | call id request => rw [same rfl]
  | refused | ignored | notification => rfl

theorem Plan.reply_congr {plan : Plan} {first second : Nat → Option Ending}
    (same : ∀ i, plan.slots[i]?.any Slot.isAwaited = true → second i = first i) :
    plan.reply second = plan.reply first := by
  cases plan with
  | refused => rfl
  | single slot =>
    have congr : slot.response? (second 0) = slot.response? (first 0) :=
      Slot.response?_congr fun awaited => same 0 (by simpa [slots] using awaited)
    simp only [reply, congr]
  | batch slots =>
    refine congrArg Reply.batch (List.filterMap_congr fun ⟨slot, i⟩ inside => ?_)
    have at_i : slots[i]? = some slot := List.mk_mem_zipIdx_iff_getElem?.mp inside
    exact Slot.response?_congr fun awaited => same i (by simp [Plan.slots, at_i, awaited])

theorem Exchange.reply_congr {x y : Exchange} (caller : y.caller = x.caller)
    (plan : y.plan = x.plan) (same : ∀ i, x.awaits i = true → y.ending? i = x.ending? i)
    (node : String) (salt : Nat → String) : y.reply node salt = x.reply node salt := by
  rw [reply, reply, plan, Plan.reply_congr same, newSession, newSession, caller]

theorem Exchange.isReady_congr {x y : Exchange} (plan : y.plan = x.plan)
    (same : ∀ i, x.awaits i = true → y.ending? i = x.ending? i) (ready : x.isReady = true) :
    y.isReady = true := by
  rw [isReady_iff] at ready ⊢
  intro i awaited
  have also : x.awaits i = true := by simpa [awaits, plan] using awaited
  rw [same i also]
  exact ready i also

/-- The reply of an exchange that was ready has gone out. -/
def Exchange.Sent (x : Exchange) (node : String) : Prop :=
  x.isReady = true ∧ ∃ salt, x.stage = .replied (x.reply node salt)

namespace Moves

variable {p : Terms} {n : Nat} {e : Event} {x y : Exchange}

/-- A reply that has gone out stays the reply to the endings. -/
theorem sent (moves : Moves p n e x y) (sent : x.Sent p.node) : y.Sent p.node := by
  obtain ⟨ready, salt, replied⟩ := sent
  have settled (i : Nat) (awaited : x.awaits i = true) : y.ending? i = x.ending? i :=
    moves.ending?_eq (x.isReady_iff.mp ready i awaited)
  refine ⟨Exchange.isReady_congr moves.plan settled ready, salt, ?_⟩
  rw [Exchange.reply_congr moves.caller moves.plan settled]
  cases moves with
  | stay => exact replied
  | start x i => rwa [x.start_stage]
  | finish x i ending => rwa [x.finish_stage]
  | reply _ _ underway => exact absurd (replied.symm.trans underway) (by simp)

theorem stage (moves : Moves p n e x y) : y.stage = x.stage ∨ y.Sent p.node := by
  cases moves with
  | stay => exact .inl rfl
  | start x i => exact .inl (x.start_stage i)
  | finish x i ending => exact .inl (x.finish_stage i ending)
  | reply x salt _ ready => exact .inr ⟨ready, salt, rfl⟩

end Moves

/-! ### Runs -/

variable {σ : Type}

/-- An event that ends a slot ends it as the back-end that is registered for its request does, in
whatever state that is. -/
def Traffic.EndsBy (g : Gateway σ) (t : Traffic) : Event → Prop
  | .finish n i ending => ∀ x r, t.exchange? n = some x → x.request? i = some r →
      ∃ b s, g.backend? r.contextVersion = some b ∧ ending = (b x.caller r s).1
  | .arrive .. | .start .. | .reply .. | .sweep .. => True

/-- What a run keeps of the exchange for a body, from its arrival on. -/
structure Exchange.Tracks (g : Gateway σ) (caller : Caller) (e : Envelope) (x : Exchange) :
    Prop where
  caller : x.caller = caller
  plan : x.plan = .ofEnvelope g.terms.serves e
  length : x.progress.length = x.plan.slots.length
  begun : ∀ i progress, x.progress? i = some progress → progress ≠ .waiting →
    (x.request? i).isSome = true
  own : ∀ i response r id, x.ending? i = some (.answered response) → x.request? i = some r →
    r.id = some id → response.id = id
  stage : x.stage = .underway ∨
    x.isReady = true ∧ ∃ salt, x.stage = .replied (x.reply g.node salt)

namespace Exchange

variable {g : Gateway σ} {caller : Caller} {e : Envelope} {x : Exchange}

theorem tracks_admitted (g : Gateway σ) (caller : Caller) (e : Envelope) :
    (admitted caller (.ofEnvelope g.terms.serves e)).Tracks g caller e where
  caller := rfl
  plan := rfl
  length := by simp [admitted]
  begun := fun i progress at_i moved => by
    have waiting : progress = .waiting := by
      simp only [admitted, progress?, List.getElem?_map, Option.map_eq_some_iff] at at_i
      obtain ⟨-, -, rfl⟩ := at_i
      rfl
    exact absurd waiting moved
  own := fun i response r id ended => by
    obtain ⟨progress, at_i, ended⟩ := Option.bind_eq_some_iff.mp ended
    simp only [admitted, progress?, List.getElem?_map, Option.map_eq_some_iff] at at_i
    obtain ⟨-, -, rfl⟩ := at_i
    simp [Progress.ending?] at ended
  stage := .inl rfl

theorem Tracks.moves {t : Traffic} {event : Event} {n : Nat} {y : Exchange}
    (keeps : ∀ version b, g.backend? version = some b → b.KeepsIds)
    (ends : t.EndsBy g event) (found : t.exchange? n = some x)
    (moves : Moves g.terms n event x y) (tracks : x.Tracks g caller e) : y.Tracks g caller e where
  caller := moves.caller.trans tracks.caller
  plan := moves.plan.trans tracks.plan
  length := by rw [moves.length_progress, moves.plan, tracks.length]
  begun := moves.begun tracks.begun
  own := fun i response r id ended asks present => by
    rw [moves.request?] at asks
    rcases moves.ending?_cases ended with before | rfl
    · exact tracks.own i response r id before asks present
    · -- This slot has just ended, as the back-end of its request did.
      obtain ⟨b, s, registered, answers⟩ := ends x r found asks
      exact keeps _ b registered x.caller r s response answers.symm id present
  stage := by
    rcases tracks.stage with underway | sent
    · exact moves.stage.imp (·.trans underway) id
    · exact .inr (moves.sent sent)

theorem Tracks.asks_of_ended (tracks : x.Tracks g caller e) {i : Nat} {ending : Ending}
    (ended : x.ending? i = some ending) : ∃ r, x.request? i = some r := by
  obtain ⟨progress, stands, ended⟩ := Option.bind_eq_some_iff.mp ended
  have moved : progress ≠ .waiting := by
    rintro rfl
    simp [Progress.ending?] at ended
  exact Option.isSome_iff_exists.mp (tracks.begun i progress stands moved)

theorem Tracks.request?_iff (tracks : x.Tracks g caller e) {i : Nat} {r : Request} :
    x.request? i = some r ↔ e.members[i]? = some (some r) ∧ Served g.terms.serves r := by
  rw [request?, tracks.plan, slots_ofEnvelope, List.getElem?_map, Option.bind_map]
  cases at_i : e.members[i]? with
  | none => simp
  | some m => simpa using request?_ofMember

theorem Tracks.awaits_iff (tracks : x.Tracks g caller e) {i : Nat} :
    x.awaits i = true ↔
      ∃ r id, e.members[i]? = some (some r) ∧ r.id = some id ∧ Served g.terms.serves r := by
  rw [awaits, tracks.plan, slots_ofEnvelope, List.getElem?_map, Option.any_map]
  cases at_i : e.members[i]? with
  | none => simp
  | some m => simpa using isAwaited_ofMember

theorem Tracks.corresponds (tracks : x.Tracks g caller e) (ready : x.isReady = true) :
    Corresponds g.terms.serves x.ending? e (x.plan.reply x.ending?) := by
  rw [tracks.plan]
  refine Plan.reply_corresponds e (fun i m at_i awaited => ?_) ?_
  · refine x.isReady_iff.mp ready i ?_
    rw [awaits, tracks.plan, slots_ofEnvelope, List.getElem?_map, at_i]
    exact awaited
  · intro i answer r id ended at_i present
    obtain ⟨r', asks⟩ := tracks.asks_of_ended ended
    obtain rfl : r = r' := by simpa using at_i.symm.trans (tracks.request?_iff.mp asks).1
    exact tracks.own i answer r id ended asks present

end Exchange

/-- Of every body but an empty batch the answers are those of the members to be answered. -/
theorem Corresponds.forall₂ {e : Envelope} {reply : Reply} (nonempty : e ≠ .batch [])
    (corresponds : Corresponds serves endings e reply) :
    List.Forall₂ (fun m response => Answers serves m.1 (endings m.2) response) e.asked
      reply.responses := by
  cases corresponds with
  | call r silent answers =>
    have asked : (Envelope.single r).asked = [(some r, 0)] := by
      simp [Envelope.asked, Envelope.members, isAsked, silent]
    rw [asked]
    exact .cons answers .nil
  | notification r silent =>
    have asked : (Envelope.single r).asked = [] := by
      simp [Envelope.asked, Envelope.members, isAsked, silent]
    rw [asked]
    exact .nil
  | emptyBatch => exact absurd rfl nonempty
  | batch _ related => exact related.imp fun _ _ both => both.1

theorem getElem?_of_forall₂ {α β : Type} {R : α → β → Prop} {l : List α} {l' : List β}
    (related : List.Forall₂ R l l') {j : Nat} {a : α} (at_j : l[j]? = some a) :
    ∃ b, l'[j]? = some b ∧ R a b := by
  induction related generalizing j with
  | nil => simp at at_j
  | cons head tail ih =>
    cases j with
    | zero =>
      obtain rfl := Option.some.inj at_j
      exact ⟨_, rfl, head⟩
    | succ j => exact ih at_j

/-- Replies to one body under endings that differ at a crash differ in the answer of its member. -/
theorem Corresponds.of_crash {e : Envelope} {first second : Nat → Option Ending}
    {reply crashed : Reply} (one : Corresponds serves first e reply)
    (other : Corresponds serves second e crashed) {k : Nat} (crash : second k = some .crashed)
    (asks : ∀ m, e.members[k]? = some m → ∃ r, (Slot.ofMember serves m).request? = some r)
    (same : ∀ m i, (m, i) ∈ e.asked → i ≠ k → second i = first i) :
    crashed.responses.length = reply.responses.length ∧
      ∀ (j : Nat) m i, e.asked[j]? = some (m, i) →
        crashed.responses[j]? =
          if i = k then some (.failure (memberId m) .crashed) else reply.responses[j]? := by
  by_cases nonempty : e = .batch []
  · -- An empty batch is refused, and has no members to tell anything of.
    subst nonempty
    cases one with
    | batch nonempty => exact absurd rfl nonempty
    | emptyBatch =>
      cases other with
      | batch nonempty => exact absurd rfl nonempty
      | emptyBatch =>
        exact ⟨rfl, fun j m i at_j => by simp [Envelope.asked, Envelope.members] at at_j⟩
  · have related := one.forall₂ nonempty
    have related' := other.forall₂ nonempty
    refine ⟨related'.length_eq.symm.trans related.length_eq, fun j m i at_j => ?_⟩
    obtain ⟨r, there, answers⟩ := getElem?_of_forall₂ related at_j
    obtain ⟨r', there', answers'⟩ := getElem?_of_forall₂ related' at_j
    have member : (m, i) ∈ e.asked := List.mem_of_getElem? at_j
    rw [there, there']
    split
    · rename_i here
      subst here
      have at_k := List.mk_mem_zipIdx_iff_getElem?.mp (List.mem_filter.mp member).1
      obtain ⟨request, asks⟩ := asks m at_k
      rw [crash] at answers'
      rw [answers'.of_crashed asks]
    · rename_i elsewhere
      rw [same m i member elsewhere] at answers'
      rw [answers'.unique answers]

theorem Reply.map_bare_stamp (reply : Reply) (node : String) (newSession : Option String)
    (salt : Nat → String) : (reply.stamp node newSession salt).responses.map Response.bare =
      reply.responses.map Response.bare := by
  cases reply with
  | single response => rfl
  | batch responses =>
    refine List.ext_getElem? fun i => ?_
    simp only [stamp, Reply.responses, List.getElem?_map, List.getElem?_mapIdx, Option.map_map]
    rfl
  | empty => rfl

namespace Traffic

variable {g : Gateway σ} {t : Traffic} {caller : Caller} {body : Bytes} {e : Envelope}
  {now : Time.Instant} {sessions : Session.Registry}

theorem tracks_run (keeps : ∀ version b, g.backend? version = some b → b.KeepsIds)
    (parses : Envelope.parse body = .ok e)
    (admitted : t.sessions.acquire caller.session now g.terms.ttl = .admitted sessions)
    {later : List Event}
    (ends : Run.Along (step g.terms) (EndsBy g) (t.step g.terms (.arrive caller (some body) now))
      later) :
    ∃ x, (t.run g.terms (.arrive caller (some body) now :: later)).exchange? t.exchanges.length =
      some x ∧ x.Tracks g caller e := by
  have plan : Plan.ofBody g.terms.serves (some body) = .ofEnvelope g.terms.serves e := by
    simp [Plan.ofBody, parses]
  have arrived : (t.step g.terms (.arrive caller (some body) now)).exchange? t.exchanges.length =
      some (.admitted caller (.ofEnvelope g.terms.serves e)) := by
    simp [step, arrive, admitted, plan, exchange?]
  exact moves_along (fun t event x y ends found moves tracks => tracks.moves keeps ends found moves)
    arrived (Exchange.tracks_admitted g caller e) ends

/-- What two runs answer a body with differs only at the member whose back-end crashed in one. -/
theorem answers_of_crash {x y : Exchange} (tracks : x.Tracks g caller e)
    (tracks' : y.Tracks g caller e) {reply crashed : Reply} (replied : x.stage = .replied reply)
    (replied' : y.stage = .replied crashed) {k : Nat} (crash : y.ending? k = some .crashed)
    (same : ∀ m i, (m, i) ∈ e.asked → i ≠ k → y.ending? i = x.ending? i) :
    crashed.responses.length = reply.responses.length ∧
      ∀ (j : Nat) m i, e.asked[j]? = some (m, i) →
        crashed.responses[j]?.map Response.bare =
          if i = k then some (.failure (memberId m) .crashed)
          else reply.responses[j]?.map Response.bare := by
  have sent {z : Exchange} {r : Reply} (tracks : z.Tracks g caller e)
      (replied : z.stage = .replied r) : ∃ bare, Corresponds g.terms.serves z.ending? e bare ∧
        r.responses.map Response.bare = bare.responses.map Response.bare := by
    rcases tracks.stage with underway | ⟨ready, salt, also⟩
    · exact absurd (replied.symm.trans underway) (by simp)
    · obtain rfl := Stage.replied.inj (replied.symm.trans also)
      exact ⟨_, tracks.corresponds ready, Reply.map_bare_stamp ..⟩
  obtain ⟨bare, one, equal⟩ := sent tracks replied
  obtain ⟨bare', other, equal'⟩ := sent tracks' replied'
  have asks (m) (at_k : e.members[k]? = some m) :
      ∃ r, (Slot.ofMember g.terms.serves m).request? = some r := by
    obtain ⟨r, asks⟩ := tracks'.asks_of_ended crash
    obtain ⟨there, served⟩ := tracks'.request?_iff.mp asks
    exact ⟨r, request?_ofMember.mpr ⟨Option.some.inj (at_k.symm.trans there), served⟩⟩
  obtain ⟨length, answers⟩ := one.of_crash other crash asks same
  have lengths := congrArg List.length equal
  have lengths' := congrArg List.length equal'
  simp only [List.length_map] at lengths lengths'
  refine ⟨by omega, fun j m i at_j => ?_⟩
  rw [← List.getElem?_map, ← List.getElem?_map, equal, equal', List.getElem?_map,
    List.getElem?_map, answers j m i at_j]
  split <;> rfl

/-- Whatever the order in which back-ends start, end and crash, the reply to an admitted body
answers its members that are not notifications, in order and under their ids; it can go out once
their back-ends have ended. A crash changes the answer of its own member, and no other. -/
theorem replies_correspond (g : Gateway σ)
    (keeps : ∀ version b, g.backend? version = some b → b.KeepsIds) (t : Traffic)
    (caller : Caller) (body : Bytes) (e : Envelope) (now : Time.Instant)
    (sessions : Session.Registry) (parses : Envelope.parse body = .ok e)
    (admitted : t.sessions.acquire caller.session now g.terms.ttl = .admitted sessions)
    (later : List Event)
    (ends : Run.Along (step g.terms) (EndsBy g) (t.step g.terms (.arrive caller (some body) now))
      later) :
    let n := t.exchanges.length
    let arrival := Event.arrive caller (some body) now
    let after := t.run g.terms (arrival :: later)
    ∃ x, after.exchange? n = some x ∧
      (x.stage = .underway ∧
          ((∀ i r id, e.members[i]? = some (some r) → r.id = some id →
              Served g.terms.serves r → (x.ending? i).isSome = true) →
            ∀ salt, ∃ reply, ((after.step g.terms (.reply n salt)).exchange? n).map (·.stage) =
              some (.replied reply)) ∨
        ∃ reply salt, x.stage = .replied (reply.stamp g.node x.newSession salt) ∧
          Corresponds g.terms.serves x.ending? e reply) ∧
      ∀ other y reply crashed k,
        Run.Along (step g.terms) (EndsBy g) (t.step g.terms arrival) other →
        (t.run g.terms (arrival :: other)).exchange? n = some y →
        x.stage = .replied reply → y.stage = .replied crashed → y.ending? k = some .crashed →
        (∀ m i, (m, i) ∈ e.asked → i ≠ k → y.ending? i = x.ending? i) →
        crashed.responses.length = reply.responses.length ∧
          ∀ (j : Nat) m i, e.asked[j]? = some (m, i) →
            crashed.responses[j]?.map Response.bare =
              if i = k then some (.failure (memberId m) .crashed)
              else reply.responses[j]?.map Response.bare := by
  intro n arrival after
  obtain ⟨x, found, tracks⟩ := tracks_run keeps parses admitted ends
  refine ⟨x, found, ?_, fun other y reply crashed k ends' found' replied replied' crash same => ?_⟩
  · rcases tracks.stage with underway | ⟨ready, salt, replied⟩
    · refine .inl ⟨underway, fun ended salt => ?_⟩
      have ready : x.isReady = true := x.isReady_iff.mpr fun i awaited => by
        obtain ⟨r, id, at_i, present, served⟩ := tracks.awaits_iff.mp awaited
        exact ended i r id at_i present served
      rw [exchange?_reply g.terms found underway ready]
      exact ⟨_, rfl⟩
    · exact .inr ⟨_, salt, replied, tracks.corresponds ready⟩
  · obtain ⟨z, found'', tracks'⟩ := tracks_run keeps parses admitted ends'
    obtain rfl : y = z := Option.some.inj (found'.symm.trans found'')
    exact answers_of_crash tracks tracks' replied replied' crash same

/-- A batch of a call, a number, a notification and a call whose back-end crashes, the last of which
starts and ends first: three answers go out, the notification being still underway. -/
theorem replies_correspond_of_mixed_batch :
    let backend : Backend Unit := fun _ r s =>
      (if r.method = "crash" then .crashed
        else .answered (.success (r.id.getD .null) (.str r.method)), s)
    let g : Gateway Unit := { node := "n", ttl := .ofSeconds 60, backends := [("v1", backend)] }
    let call : Request := { id := some (.int 1), method := "call", contextVersion := "v1" }
    let event : Request := { method := "event", contextVersion := "v1" }
    let crash : Request := { id := some (.str "x"), method := "crash", contextVersion := "v1" }
    let body := Bytes.ofString "[" ++
      List.intercalate [0x2C] [call.encode, Bytes.ofString "7", event.encode, crash.encode] ++
      Bytes.ofString "]"
    let e : Envelope := .batch [some call, none, some event, some crash]
    let now : Time.Instant := ⟨0, 0, by decide, by decide⟩
    let caller : Caller := { session := "s" }
    let later : List Event := [.start 0 3, .start 0 0, .finish 0 3 .crashed, .start 0 2,
      .finish 0 0 (.answered (.success (.int 1) (.str "call"))), .reply 0 fun _ => "salt"]
    Envelope.parse body = .ok e ∧
      ∃ x reply salt, (run g.terms {} (.arrive caller (some body) now :: later)).exchange? 0 =
          some x ∧ x.stage = .replied (reply.stamp g.node x.newSession salt) ∧
        Corresponds g.terms.serves x.ending? e reply := by
  intro backend g call event crash body e now caller later
  have parses : Envelope.parse body = .ok e := by decide +kernel
  have keeps : ∀ version b, g.backend? version = some b → b.KeepsIds := by
    intro version b registered caller r s response answers id present
    obtain rfl : backend = b := by
      simp only [g, Gateway.backend?, List.lookup_cons, List.lookup_nil] at registered
      split at registered <;> simp_all
    simp only [backend] at answers
    split at answers
    · simp at answers
    · rw [← Ending.answered.inj answers, present]
      rfl
  have admitted : Session.Registry.acquire {} caller.session now g.terms.ttl =
      .admitted ⟨[("s", ⟨60, 0, by decide, by decide⟩)]⟩ := rfl
  let arrived := step g.terms {} (.arrive caller (some body) now)
  have crashing : ((arrived.run g.terms (later.take 2)).exchange? 0).bind (·.request? 3) =
      some crash := by decide +kernel
  have calling : ((arrived.run g.terms (later.take 4)).exchange? 0).bind (·.request? 0) =
      some call := by decide +kernel
  have ends : Run.Along (step g.terms) (EndsBy g) arrived later := by
    refine ⟨trivial, trivial, fun x r found asks => ?_, trivial, fun x r found asks => ?_,
      trivial, trivial⟩
    · obtain rfl : crash = r := Option.some.inj
        (crashing.symm.trans ((congrArg (·.bind (·.request? 3)) found).trans asks))
      exact ⟨backend, (), rfl, rfl⟩
    · obtain rfl : call = r := Option.some.inj
        (calling.symm.trans ((congrArg (·.bind (·.request? 0)) found).trans asks))
      exact ⟨backend, (), rfl, rfl⟩
  obtain ⟨x, found, stands, -⟩ :=
    replies_correspond g keeps {} caller body e now _ parses admitted later ends
  refine ⟨parses, x, ?_⟩
  rcases stands with ⟨underway, -⟩ | ⟨reply, salt, replied, corresponds⟩
  · have gone : ((arrived.run g.terms later).exchange? 0).map (·.stage) ≠ some .underway := by
      decide +kernel
    exact absurd ((congrArg (·.map (·.stage)) found).trans (congrArg some underway)) gone
  · exact ⟨reply, salt, found, replied, corresponds⟩

end Traffic

end Gateway

end ScriptGate
