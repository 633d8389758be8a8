import ScriptGate.Gateway
import ScriptGate.Proofs.Run
import ScriptGate.Proofs.Session.Registry

/-!
# What an event does to an exchange

An event begins an exchange, moves the one that it names, or leaves all of them as they are.
`Begins` and `Moves` say how, and `exchanges_keep` is the induction over a run for what each
exchange keeps.
-/

namespace ScriptGate.Gateway

namespace Exchange

variable (x : Exchange) (i : Nat) (ending : Ending)

def answer (node : String) (salt : Nat → String) : Exchange :=
  { x with stage := .replied (x.reply node salt) }

@[simp] theorem start_caller : (x.start i).caller = x.caller := by unfold start; split <;> rfl

@[simp] theorem start_guard : (x.start i).guard = x.guard := by unfold start; split <;> rfl

@[simp] theorem start_plan : (x.start i).plan = x.plan := by unfold start; split <;> rfl

@[simp] theorem start_stage : (x.start i).stage = x.stage := by unfold start; split <;> rfl

@[simp] theorem finish_caller : (x.finish i ending).caller = x.caller := by
  unfold finish; split <;> rfl

@[simp] theorem finish_guard : (x.finish i ending).guard = x.guard := by
  unfold finish; split <;> rfl

@[simp] theorem finish_plan : (x.finish i ending).plan = x.plan := by unfold finish; split <;> rfl

@[simp] theorem finish_stage : (x.finish i ending).stage = x.stage := by
  unfold finish; split <;> rfl

@[simp] theorem length_progress_start : (x.start i).progress.length = x.progress.length := by
  unfold start; split <;> simp

@[simp] theorem length_progress_finish :
    (x.finish i ending).progress.length = x.progress.length := by
  unfold finish; split <;> simp

/-- A start moves a slot only from waiting to running. -/
theorem progress?_start (j : Nat) :
    (x.start i).progress? j = x.progress? j ∨
      i = j ∧ x.progress? i = some .waiting ∧ (x.start i).progress? j = some .running := by
  unfold start
  split
  · rename_i starts
    by_cases same : i = j
    · subst same
      have bound : i < x.progress.length := (List.getElem?_eq_some_iff.mp starts.2).1
      exact .inr ⟨rfl, starts.2, by simp [progress?, bound]⟩
    · exact .inl (by simp [progress?, List.getElem?_set_ne same])
  · exact .inl rfl

/-- An end moves a slot only from running to ended. -/
theorem progress?_finish (j : Nat) :
    (x.finish i ending).progress? j = x.progress? j ∨
      i = j ∧ x.progress? i = some .running ∧
        (x.finish i ending).progress? j = some (.ended ending) := by
  unfold finish
  split
  · rename_i running
    have running : x.progress? i = some .running := by simpa [isRunning] using running
    by_cases same : i = j
    · subst same
      have bound : i < x.progress.length := (List.getElem?_eq_some_iff.mp running).1
      exact .inr ⟨rfl, running, by simp [progress?, bound]⟩
    · exact .inl (by simp [progress?, List.getElem?_set_ne same])
  · exact .inl rfl

theorem ending?_start {j : Nat} (ended : (x.ending? j).isSome) :
    (x.start i).ending? j = x.ending? j := by
  rcases x.progress?_start i j with same | ⟨rfl, waiting, -⟩
  · simp [ending?, same]
  · simp [ending?, waiting, Progress.ending?] at ended

theorem ending?_finish {j : Nat} (ended : (x.ending? j).isSome) :
    (x.finish i ending).ending? j = x.ending? j := by
  rcases x.progress?_finish i ending j with same | ⟨rfl, running, -⟩
  · simp [ending?, same]
  · simp [ending?, running, Progress.ending?] at ended

def awaits (i : Nat) : Bool := x.plan.slots[i]?.any Slot.isAwaited

theorem isSome_request?_of_awaits {i : Nat} (awaited : x.awaits i = true) :
    (x.request? i).isSome = true := by
  simp only [awaits, Option.any_eq_true] at awaited
  obtain ⟨slot, found, awaited⟩ := awaited
  cases slot <;> simp [Slot.isAwaited] at awaited
  simp [request?, found, Slot.request?]

theorem progress?_start_self {i : Nat} (asks : (x.request? i).isSome = true)
    (waiting : x.progress? i = some .waiting) : (x.start i).progress? i = some .running := by
  have bound : i < x.progress.length := (List.getElem?_eq_some_iff.mp waiting).1
  rw [start, if_pos ⟨asks, waiting⟩]
  simp [progress?, bound]

theorem progress?_finish_self {i : Nat} (running : x.progress? i = some .running) :
    (x.finish i ending).progress? i = some (.ended ending) := by
  have bound : i < x.progress.length := (List.getElem?_eq_some_iff.mp running).1
  rw [finish, if_pos (by simp [isRunning, running])]
  simp [progress?, bound]

/-- An awaited slot that is started and then ended has an ending. -/
theorem isSome_ending?_serve {i : Nat} (awaited : x.awaits i = true)
    (bound : i < x.progress.length) :
    (((x.start i).finish i ending).ending? i).isSome = true := by
  cases stands : x.progress? i with
  | none => simp [progress?, bound] at stands
  | some progress =>
    cases progress with
    | waiting =>
      have running := x.progress?_start_self (x.isSome_request?_of_awaits awaited) stands
      simp [ending?, (x.start i).progress?_finish_self ending running, Progress.ending?]
    | running =>
      have same : x.start i = x := by simp [start, stands]
      simp [same, ending?, x.progress?_finish_self ending stands, Progress.ending?]
    | ended other =>
      have same : x.start i = x := by simp [start, stands]
      have kept : x.finish i ending = x := by simp [finish, isRunning, stands]
      simp [same, kept, ending?, stands, Progress.ending?]

theorem isReady_iff : x.isReady = true ↔ ∀ i, x.awaits i = true → (x.ending? i).isSome = true := by
  simp only [isReady, List.all_eq_true, Prod.forall, List.mk_mem_zipIdx_iff_getElem?, awaits,
    Option.any_eq_true]
  refine ⟨fun ready i ⟨slot, found, awaited⟩ => ?_, fun ready slot i found => ?_⟩
  · simpa [awaited] using ready slot i found
  · cases awaited : slot.isAwaited with
    | true => simpa using ready i ⟨slot, found, awaited⟩
    | false => rfl

end Exchange

/-- How an event begins an exchange. -/
inductive Begins (p : Terms) (t : Traffic) : Event → Exchange → Prop where
  | admitted (caller : Caller) (body : Option Bytes) (now : Time.Instant) :
      caller.session ∉ t.sessions.ids →
      Begins p t (.arrive caller body now) (.admitted caller (.ofBody p.serves body))
  | busy (caller : Caller) (body : Option Bytes) (now : Time.Instant) :
      caller.session ∈ t.sessions.ids → Begins p t (.arrive caller body now) (.busy caller)
  | aborted (caller : Caller) (body : Option Bytes) (now : Time.Instant) :
      Begins p t (.arrive caller body now) (.aborted caller)

/-- How an event moves the exchange of a number. -/
inductive Moves (p : Terms) (n : Nat) : Event → Exchange → Exchange → Prop where
  | stay (e : Event) (x : Exchange) : Moves p n e x x
  | start (x : Exchange) (i : Nat) : Moves p n (.start n i) x (x.start i)
  | finish (x : Exchange) (i : Nat) (ending : Ending) :
      Moves p n (.finish n i ending) x (x.finish i ending)
  | reply (x : Exchange) (salt : Nat → String) : x.stage = .underway → x.isReady = true →
      Moves p n (.reply n salt) x (x.answer p.node salt)

namespace Moves

variable {p : Terms} {n : Nat} {e : Event} {x y : Exchange}

theorem caller (moves : Moves p n e x y) : y.caller = x.caller := by
  cases moves <;> simp [Exchange.answer]

theorem plan (moves : Moves p n e x y) : y.plan = x.plan := by
  cases moves <;> simp [Exchange.answer]

theorem guard (moves : Moves p n e x y) : y.guard = x.guard := by
  cases moves <;> simp [Exchange.answer]

theorem length_progress (moves : Moves p n e x y) : y.progress.length = x.progress.length := by
  cases moves <;> simp [Exchange.answer]

theorem request? (moves : Moves p n e x y) (i : Nat) : y.request? i = x.request? i := by
  rw [Exchange.request?, Exchange.request?, moves.plan]

/-- A slot stays as it is, starts if it has a request, or ends as the event says. -/
theorem progress? (moves : Moves p n e x y) (i : Nat) :
    y.progress? i = x.progress? i ∨
    ((x.request? i).isSome = true ∧ x.progress? i = some .waiting ∧
      y.progress? i = some .running) ∨
    ∃ ending, e = .finish n i ending ∧ x.progress? i = some .running ∧
      y.progress? i = some (.ended ending) := by
  cases moves with
  | stay => exact .inl rfl
  | start x j =>
    rcases x.progress?_start j i with same | ⟨rfl, waiting, running⟩
    · exact .inl same
    · refine .inr (.inl ⟨Decidable.byContradiction fun silent => ?_, waiting, running⟩)
      have idle : x.start j = x := by rw [Exchange.start, if_neg fun both => silent both.1]
      simp [idle, waiting] at running
  | finish x j ending =>
    rcases x.progress?_finish j ending i with same | ⟨rfl, running, ended⟩
    · exact .inl same
    · exact .inr (.inr ⟨ending, rfl, running, ended⟩)
  | reply => exact .inl rfl

/-- What has ended stays so. -/
theorem ending?_eq (moves : Moves p n e x y) {i : Nat} (ended : (x.ending? i).isSome = true) :
    y.ending? i = x.ending? i := by
  rcases moves.progress? i with same | ⟨-, waiting, -⟩ | ⟨-, -, running, -⟩
  · simp [Exchange.ending?, same]
  · simp [Exchange.ending?, waiting, Progress.ending?] at ended
  · simp [Exchange.ending?, running, Progress.ending?] at ended

/-- What has ended was so before, or ends with this event. -/
theorem ending?_cases (moves : Moves p n e x y) {i : Nat} {ending : Ending}
    (ended : y.ending? i = some ending) :
    x.ending? i = some ending ∨ e = .finish n i ending := by
  rcases moves.progress? i with same | ⟨-, -, running⟩ | ⟨other, event, -, now⟩
  · exact .inl (by simpa [Exchange.ending?, same] using ended)
  · simp [Exchange.ending?, running, Progress.ending?] at ended
  · obtain rfl : other = ending := by simpa [Exchange.ending?, now, Progress.ending?] using ended
    exact .inr event

/-- Only slots with a request do not wait. -/
theorem begun (moves : Moves p n e x y)
    (begun : ∀ i progress, x.progress? i = some progress → progress ≠ .waiting →
      (x.request? i).isSome = true) :
    ∀ i progress, y.progress? i = some progress → progress ≠ .waiting →
      (y.request? i).isSome = true := by
  intro i progress stands moved
  rw [moves.request?]
  rcases moves.progress? i with same | ⟨asks, -, -⟩ | ⟨-, -, running, -⟩
  · exact begun i progress (same ▸ stands) moved
  · exact asks
  · exact begun i .running running (by simp)

end Moves

namespace Traffic

variable {p : Terms} {t : Traffic}

@[simp] theorem run_nil (p : Terms) (t : Traffic) : t.run p [] = t := rfl

@[simp] theorem run_cons (p : Terms) (t : Traffic) (e : Event) (rest : List Event) :
    t.run p (e :: rest) = (t.step p e).run p rest := rfl

theorem run_append (p : Terms) (t : Traffic) (first second : List Event) :
    t.run p (first ++ second) = (t.run p first).run p second := List.foldl_append

theorem exchange?_change (t : Traffic) (m n : Nat) (f : Exchange → Exchange) :
    (t.change m f).exchange? n = (t.exchange? n).map fun x => if m = n then f x else x := by
  simp [exchange?, change, List.getElem?_modify]

theorem arrive_cases (p : Terms) (t : Traffic) (caller : Caller) (body : Option Bytes)
    (now : Time.Instant) :
    (caller.session ∈ t.sessions.ids ∧
      t.arrive p caller body now = { t with exchanges := t.exchanges ++ [.busy caller] }) ∨
    (caller.session ∉ t.sessions.ids ∧ ∃ expiry, t.arrive p caller body now =
      ⟨⟨(caller.session, expiry) :: t.sessions.entries⟩,
        t.exchanges ++ [.admitted caller (.ofBody p.serves body)]⟩) ∨
    (caller.session ∉ t.sessions.ids ∧ now.add? p.ttl = none ∧
      t.arrive p caller body now = { t with exchanges := t.exchanges ++ [.aborted caller] }) := by
  unfold arrive
  cases asked : t.sessions.acquire caller.session now p.ttl with
  | busy => exact .inl ⟨Session.Registry.acquire_busy_iff.mp asked, rfl⟩
  | admitted sessions =>
    obtain ⟨free, expiry, -, rfl⟩ := Session.Registry.acquire_admitted_iff.mp asked
    exact .inr (.inl ⟨free, expiry, rfl⟩)
  | overflow =>
    obtain ⟨free, late⟩ := Session.Registry.acquire_overflow_iff.mp asked
    exact .inr (.inr ⟨free, Time.Instant.add?_eq_none_iff.mpr late, rfl⟩)

theorem reply_eq (p : Terms) {n : Nat} {x : Exchange} (found : t.exchange? n = some x)
    (underway : x.stage = .underway) (ready : x.isReady = true) (salt : Nat → String) :
    t.reply p n salt = ⟨x.guard.elim t.sessions (·.drop t.sessions),
      t.exchanges.modify n (·.answer p.node salt)⟩ := by
  simp only [reply, found, underway, ready, and_self, if_true]
  rfl

theorem exchange?_reply (p : Terms) {n : Nat} {x : Exchange} (found : t.exchange? n = some x)
    (underway : x.stage = .underway) (ready : x.isReady = true) (salt : Nat → String) :
    (t.step p (.reply n salt)).exchange? n = some (x.answer p.node salt) := by
  rw [exchange?] at found
  rw [step, reply_eq p found underway ready, exchange?, List.getElem?_modify, found]
  simp

theorem reply_cases (p : Terms) (t : Traffic) (n : Nat) (salt : Nat → String) :
    t.reply p n salt = t ∨ ∃ x, t.exchange? n = some x ∧ x.stage = .underway ∧ x.isReady = true ∧
      t.reply p n salt = ⟨x.guard.elim t.sessions (·.drop t.sessions),
        t.exchanges.modify n (·.answer p.node salt)⟩ := by
  unfold reply
  split
  · rename_i x found
    split
    · rename_i ready
      exact .inr ⟨x, found, ready.1, ready.2, rfl⟩
    · exact .inl rfl
  · exact .inl rfl

theorem moves_change {e : Event} {m n : Nat} {f : Exchange → Exchange} {y : Exchange}
    (moves : ∀ x, t.exchange? n = some x → m = n → Moves p n e x (f x))
    (found : (t.change m f).exchange? n = some y) :
    ∃ x, t.exchange? n = some x ∧ Moves p n e x y := by
  rw [exchange?_change] at found
  obtain ⟨x, old, rfl⟩ := Option.map_eq_some_iff.mp found
  refine ⟨x, old, ?_⟩
  split
  · rename_i same
    exact moves x old same
  · exact .stay e x

theorem exchange?_arrive {caller : Caller} {body : Option Bytes} {now : Time.Instant} {n : Nat}
    {y : Exchange} (found : (t.arrive p caller body now).exchange? n = some y) :
    t.exchange? n = some y ∨
      n = t.exchanges.length ∧ Begins p t (.arrive caller body now) y := by
  have appended {z : Exchange} (begins : Begins p t (.arrive caller body now) z)
      (at_n : (t.exchanges ++ [z])[n]? = some y) : t.exchange? n = some y ∨
        n = t.exchanges.length ∧ Begins p t (.arrive caller body now) y := by
    rcases Nat.lt_trichotomy n t.exchanges.length with below | equal | above
    · exact .inl (by rwa [List.getElem?_append_left below] at at_n)
    · obtain rfl : z = y := by simpa [equal] using at_n
      exact .inr ⟨equal, begins⟩
    · rw [List.getElem?_eq_none (by simp; omega)] at at_n
      exact absurd at_n (by simp)
  rcases t.arrive_cases p caller body now with
    ⟨busy, equal⟩ | ⟨free, expiry, equal⟩ | ⟨-, -, equal⟩
  all_goals rw [equal, exchange?] at found
  · exact appended (.busy caller body now busy) found
  · exact appended (.admitted caller body now free) found
  · exact appended (.aborted caller body now) found

/-- Every exchange after an event was there before it or begins with it. -/
theorem exchange?_step {e : Event} {n : Nat} {y : Exchange}
    (found : (t.step p e).exchange? n = some y) :
    (∃ x, t.exchange? n = some x ∧ Moves p n e x y) ∨
      n = t.exchanges.length ∧ Begins p t e y := by
  cases e with
  | arrive caller body now =>
    rcases exchange?_arrive found with old | begins
    · exact .inl ⟨y, old, .stay _ y⟩
    · exact .inr begins
  | start m i =>
    refine .inl (moves_change (fun x _ same => ?_) found)
    subst same
    exact .start x i
  | finish m i ending =>
    refine .inl (moves_change (fun x _ same => ?_) found)
    subst same
    exact .finish x i ending
  | reply m salt =>
    rcases t.reply_cases p m salt with equal | ⟨x, old, underway, ready, equal⟩
    · rw [step, equal] at found
      exact .inl ⟨y, found, .stay _ y⟩
    · rw [step, equal] at found
      refine .inl (moves_change (f := (·.answer p.node salt)) (fun z also same => ?_) found)
      subst same
      obtain rfl : x = z := Option.some.inj (old.symm.trans also)
      exact .reply x salt underway ready
  | sweep now => exact .inl ⟨y, found, .stay _ y⟩

theorem length_step (p : Terms) (t : Traffic) (e : Event) :
    t.exchanges.length ≤ (t.step p e).exchanges.length := by
  cases e with
  | arrive caller body now =>
    rcases t.arrive_cases p caller body now with
      ⟨-, equal⟩ | ⟨-, expiry, equal⟩ | ⟨-, -, equal⟩ <;>
      simp [step, equal]
  | start n i | finish n i ending => simp [step, change]
  | reply n salt =>
    rcases t.reply_cases p n salt with equal | ⟨x, -, -, -, equal⟩ <;> simp [step, equal]
  | sweep now => exact Nat.le_refl _

/-- An exchange stays where it is and moves as its events say. -/
theorem moves_step {n : Nat} {x : Exchange} (p : Terms) (e : Event)
    (found : t.exchange? n = some x) :
    ∃ y, (t.step p e).exchange? n = some y ∧ Moves p n e x y := by
  have bound : n < t.exchanges.length := (List.getElem?_eq_some_iff.mp found).1
  obtain ⟨y, after⟩ : ∃ y, (t.step p e).exchange? n = some y :=
    ⟨_, List.getElem?_eq_getElem (Nat.lt_of_lt_of_le bound (length_step p t e))⟩
  rcases exchange?_step after with ⟨z, old, moves⟩ | ⟨last, -⟩
  · obtain rfl : x = z := Option.some.inj (found.symm.trans old)
    exact ⟨y, after, moves⟩
  · omega

/-- What holds of an exchange and is kept as it moves by allowed events holds of it from then on. -/
theorem moves_along {allowed : Traffic → Event → Prop} {P : Exchange → Prop} {n : Nat}
    (moves : ∀ t e x y, allowed t e → t.exchange? n = some x → Moves p n e x y → P x → P y)
    {x : Exchange} (found : t.exchange? n = some x) (start : P x) {later : List Event}
    (along : Run.Along (step p) allowed t later) :
    ∃ y, (t.run p later).exchange? n = some y ∧ P y := by
  induction later generalizing t x with
  | nil => exact ⟨x, found, start⟩
  | cons e rest ih =>
    obtain ⟨y, after, move⟩ := moves_step p e found
    exact ih after (moves t e x y along.1 found move start) along.2

/-- What holds of an exchange and is kept as it moves holds of it in every later state. -/
theorem moves_run {P : Exchange → Prop} {n : Nat}
    (moves : ∀ e x y, Moves p n e x y → P x → P y) {x : Exchange}
    (found : t.exchange? n = some x) (start : P x) (later : List Event) :
    ∃ y, (t.run p later).exchange? n = some y ∧ P y := by
  have along : Run.Along (step p) (fun _ _ => True) t later :=
    Run.along_of_mem (fun _ _ _ => trivial) t
  exact moves_along (fun _ e x y _ _ move => moves e x y move) found start along

/-- What holds of an exchange when it begins and is kept as it moves holds throughout a run. -/
theorem exchanges_keep {allowed : Traffic → Event → Prop} {P : Exchange → Prop}
    (begins : ∀ t e x, Begins p t e x → P x)
    (moves : ∀ t e n x y, allowed t e → t.exchange? n = some x → Moves p n e x y → P x → P y)
    {events : List Event} (along : Run.Along (step p) allowed {} events) {n : Nat} {x : Exchange}
    (found : (run p {} events).exchange? n = some x) : P x := by
  refine Run.run_keeps (P := fun t => ∀ n x, t.exchange? n = some x → P x)
    (fun t e permitted before n y after => ?_) along (by simp [exchange?]) n x found
  rcases exchange?_step after with ⟨x, old, move⟩ | ⟨-, begun⟩
  · exact moves t e n x y permitted old move (before n x old)
  · exact begins t e y begun

end Traffic

end ScriptGate.Gateway
