import ScriptGate.Http.Server
import ScriptGate.Proofs.Gateway.Handling

/-!
# A request from arrival to answer

What `handle` comes to for each kind of request: another path, another method, or a body for the
gateway, whose exchange the answer is made from. Back-ends that keep lists change none of it.
-/

namespace ScriptGate

namespace Http.Target

variable {scheme authority rest : List Char}

theorem behindScheme?_append (schemed : ∀ c ∈ scheme, isSchemeChar c = true) :
    behindScheme? (scheme ++ ':' :: '/' :: '/' :: rest) = some rest := by
  have colon : ¬ isSchemeChar ':' = true := by decide
  rw [behindScheme?, List.dropWhile_append_of_pos schemed, List.dropWhile_cons_of_neg colon]
  rfl

theorem path_of_behindScheme? {target tail : List Char} {c : Char}
    (behind : behindScheme? target = some rest)
    (shown : pathOf (rest.dropWhile (!isEnd ·)) = c :: tail) : path target = c :: tail := by
  unfold path
  split
  · simp [behindScheme?, show isSchemeChar '/' = false from rfl] at behind
  · simp [behindScheme?, show isSchemeChar '*' = false from rfl] at behind
  · simp only [behind, shown]

/-- Behind a scheme and an authority a target has the path that it has without them. -/
theorem path_absolute (schemed : ∀ c ∈ scheme, isSchemeChar c = true)
    (inside : ∀ c ∈ authority, isEnd c = false) :
    path (scheme ++ ':' :: '/' :: '/' :: (authority ++ '/' :: rest)) = path ('/' :: rest) := by
  have slash : (authority ++ '/' :: rest).dropWhile (!isEnd ·) = '/' :: rest := by
    rw [List.dropWhile_append_of_pos fun c member => by simp [inside c member]]
    rfl
  exact path_of_behindScheme? (behindScheme?_append schemed) (by rw [slash]; rfl)

end Http.Target

namespace Http.Server

variable {σ ε : Type} {v : Server σ} {s : σ} {t : Gateway.Traffic} {r : Request}
  {peer : Option Net.SocketAddress} {now : Time.Instant} {d : Draw}

def bodyOf (v : Server σ) (r : Request) : Option Bytes :=
  r.body.filter fun b => b.length ≤ v.maxBody

/-- The exchange that a request to the route begins. -/
def opening (v : Server σ) (t : Gateway.Traffic) (r : Request) (peer : Option Net.SocketAddress)
    (now : Time.Instant) (d : Draw) : Gateway.Exchange :=
  v.gateway.opening t.sessions (r.caller peer d.session) (v.bodyOf r) now

theorem stage_opening (v : Server σ) (t : Gateway.Traffic) (r : Request)
    (peer : Option Net.SocketAddress) (now : Time.Instant) (d : Draw) (reply : Gateway.Reply) :
    (v.opening t r peer now d).stage ≠ .replied reply := by
  rw [opening]
  rcases v.gateway.opening_cases t.sessions (r.caller peer d.session) (v.bodyOf r) now with
    ⟨-, opened⟩ | ⟨-, -, opened⟩ | ⟨-, -, opened⟩ <;>
  simp [opened, Gateway.Exchange.busy, Gateway.Exchange.admitted, Gateway.Exchange.aborted]

theorem plan_opening_of_aborted (aborted : (v.opening t r peer now d).stage = .aborted) :
    (v.opening t r peer now d).plan = .refused internalServerError .internalError := by
  rw [opening] at aborted ⊢
  rcases v.gateway.opening_cases t.sessions (r.caller peer d.session) (v.bodyOf r) now with
    ⟨-, opened⟩ | ⟨-, -, opened⟩ | ⟨-, -, opened⟩ <;> rw [opened] at aborted ⊢
  · cases aborted
  · cases aborted
  · rfl

/-- An answer with what an exchange has come to. -/
def answerOf (v : Server σ) (x : Gateway.Exchange) (d : Draw) : Answer :=
  match x.outcome? with
  | some (status, reply) => .of status reply.encode (some x.caller.session)
  | none => refusal internalServerError .internalError v.gateway.node x.caller d

/-- An exchange is answered with the reply to its plan, also where it has come to an abrupt end. -/
theorem answerOf_conclude {x : Gateway.Exchange} (unsent : ∀ reply, x.stage ≠ .replied reply)
    (aborts : x.stage = .aborted → x.plan = .refused internalServerError .internalError) :
    v.answerOf (x.conclude v.gateway.node d.salt) d =
      .of x.plan.status (x.reply v.gateway.node d.salt).encode (some x.caller.session) := by
  cases stage : x.stage with
  | underway =>
    rw [answerOf, x.outcome?_conclude _ stage, Gateway.Exchange.conclude_caller]
  | aborted =>
    rw [answerOf, x.outcome?_of_aborted _ stage, Gateway.Exchange.conclude_caller,
      Gateway.Exchange.reply, aborts stage]
    rfl
  | replied reply => exact absurd stage (unsent reply)

theorem handle_elsewhere (elsewhere : r.path ≠ v.route) (s : Gateway.State σ) :
    v.handle s r peer now d = (.of notFound [] none, s) := by
  rw [handle, if_pos elsewhere]

theorem handle_not_post (here : r.path = v.route) (other : r.method ≠ "POST")
    (s : Gateway.State σ) : v.handle s r peer now d =
      (refusal methodNotAllowed .invalidRequest v.gateway.node (r.caller peer d.session) d, s) := by
  rw [handle, if_neg (not_not.mpr here)]
  dsimp only
  rw [if_pos other]

/-- What a body on the route comes to. -/
theorem handle_post (here : r.path = v.route) (post : r.method = "POST") :
    v.handle ⟨t, s⟩ r peer now d =
      let x := ((v.opening t r peer now d).served v.gateway s).conclude v.gateway.node d.salt
      (v.answerOf x d, ⟨⟨t.sessions, t.exchanges ++ [x]⟩,
        (v.gateway.serveSlots (r.caller peer d.session) (v.opening t r peer now d).plan.slots s).2⟩)
      := by
  rw [handle, if_neg (not_not.mpr here)]
  dsimp only
  rw [if_neg (not_not.mpr post), Gateway.handle_eq]
  simp only [List.getLast?_concat, Option.bind_some, answerOf, Gateway.Exchange.conclude_caller,
    Gateway.Exchange.served_caller, opening, Gateway.opening_caller, bodyOf]
  generalize Gateway.Exchange.outcome? _ = outcome
  rcases outcome with _ | ⟨status, reply⟩ <;> rfl

/-- What the back-ends of a request add to the lists that they keep. -/
def trail (v : Server σ) (adds : Caller → Rpc.Request → σ → List ε) (t : Gateway.Traffic) (s : σ)
    (r : Request) (peer : Option Net.SocketAddress) (now : Time.Instant) (d : Draw) : List ε :=
  if r.path = v.route ∧ r.method = "POST" then
    v.gateway.trail adds (r.caller peer d.session) (v.opening t r peer now d).plan.slots s
  else []

/-- A server whose back-ends keep lists answers as it would without. -/
theorem handle_of_logs {g' : Gateway (σ × List ε)} {adds : Caller → Rpc.Request → σ → List ε}
    (logs : Gateway.Logs g' v.gateway adds) (log : List ε) :
    (⟨g', v.route, v.maxBody⟩ : Server (σ × List ε)).handle ⟨t, s, log⟩ r peer now d =
      ((v.handle ⟨t, s⟩ r peer now d).1, ⟨(v.handle ⟨t, s⟩ r peer now d).2.traffic,
        (v.handle ⟨t, s⟩ r peer now d).2.shared, log ++ v.trail adds t s r peer now d⟩) := by
  by_cases here : r.path = v.route
  · by_cases post : r.method = "POST"
    · rw [trail, if_pos ⟨here, post⟩]
      simp only [handle, here, post, ne_eq, not_true_eq_false, if_false, logs.handle_eq, logs.node]
      split <;> rename_i outcome <;> rw [outcome] <;> rfl
    · rw [trail, if_neg fun both => post both.2, handle_not_post here post,
        handle_not_post (v := ⟨g', v.route, v.maxBody⟩) here post, logs.node, List.append_nil]
  · rw [trail, if_neg fun both => here both.1, handle_elsewhere here,
      handle_elsewhere (v := ⟨g', v.route, v.maxBody⟩) here, List.append_nil]

/-- A server whose back-ends list their invocations. -/
def recorded (v : Server σ) : Server (σ × List (Caller × Rpc.Request)) :=
  ⟨v.gateway.recorded, v.route, v.maxBody⟩

theorem handle_recorded (v : Server σ) : v.recorded.handle ⟨t, s, []⟩ r peer now d =
    ((v.handle ⟨t, s⟩ r peer now d).1, ⟨(v.handle ⟨t, s⟩ r peer now d).2.traffic,
      (v.handle ⟨t, s⟩ r peer now d).2.shared,
      v.trail (fun caller r _ => [(caller, r)]) t s r peer now d⟩) :=
  handle_of_logs (Gateway.logs_recorded v.gateway) []

/-- Every invocation of a back-end is in the name of the caller. -/
theorem caller_of_trail {call : Caller × Rpc.Request}
    (member : call ∈ v.trail (fun caller r _ => [(caller, r)]) t s r peer now d) :
    call.1 = r.caller peer d.session := by
  unfold trail at member
  split at member
  · obtain ⟨request, state, added⟩ := Gateway.mem_trail member
    rw [List.mem_singleton.mp added]
  · cases member

end Http.Server

end ScriptGate
