import Mathlib.Data.List.Basic
import ScriptGate.Storage.Pool

/-!
# What a handle shows

A handle is asked in any way and as often as one likes, and meanwhile its writer answers, or goes
away. `sight_run` says what is shown: what the writer has done first, whatever has been asked
before. So all ways of asking agree, and what has been shown once is shown from then on.
-/

namespace ScriptGate.Storage

/-- The outcome that a reply settles. -/
def Reply.outcome? : Reply → Option Outcome
  | .awaited => none
  | .given o => some o
  | .dropped => some (.error .writerStopped)

namespace Pending

variable {h : Pending} {r : Reply}

/-- A handle listens, or it has an outcome, which is that of its reply; never both, and never
neither. -/
inductive Keeps (r : Reply) : Pending → Prop where
  | listening : Keeps r {}
  | shown {o : Outcome} (settles : r.outcome? = some o) : Keeps r (settled o)

theorem Keeps.wait_eq (keeps : Keeps r h) :
    h.wait r = r.outcome?.map fun o => (o, settled o) := by
  cases keeps with
  | listening => cases r <;> rfl
  | shown settles => simp [wait, settled, settles]

theorem Keeps.check_eq (keeps : Keeps r h) :
    h.check r = (r.outcome?, r.outcome?.elim {} settled) := by
  cases keeps with
  | listening => cases r <;> rfl
  | shown settles => simp [check, settled, settles]

theorem Keeps.isDone_eq (keeps : Keeps r h) :
    h.isDone r = (r.outcome?.isSome, r.outcome?.elim {} settled) := by
  rw [isDone, keeps.check_eq]

theorem keeps_elim (r : Reply) : Keeps r (r.outcome?.elim {} settled) := by
  cases settles : r.outcome? with
  | none => exact .listening
  | some o => exact .shown settles

theorem Keeps.mono {r' : Reply} (keeps : Keeps r h)
    (kept : ∀ o, r.outcome? = some o → r'.outcome? = some o) : Keeps r' h := by
  cases keeps with
  | listening => exact .listening
  | shown settles => exact .shown (kept _ settles)

theorem Keeps.listening_iff (keeps : Keeps r h) : h.listening = true ↔ h.outcome = none := by
  cases keeps <;> simp [settled]

end Pending

/-- What a writer makes of a write. -/
def IsAnswer (o : Outcome) : Prop :=
  ∃ files place trouble connection w, (Pool.apply files place trouble connection w).2.2 = o

/-- A writer that answers is there. -/
theorem IsAnswer.ne_stopped {o : Outcome} (made : IsAnswer o) : o ≠ .error .writerStopped := by
  obtain ⟨files, place, trouble, connection, w, rfl⟩ := made
  have executed (c : Sql.Connection) (d : Sql.Database) :
      (c.execute d w.sql w.parameters).answer.mapError Fault.ofSql ≠ .error .writerStopped := by
    cases (c.execute d w.sql w.parameters).answer with
    | error f => simp [Except.mapError, Fault.ofSql]
    | ok n => simp [Except.mapError]
  cases connection with
  | some c => exact executed c _
  | none =>
    cases trouble with
    | some message => simp [Pool.apply, Pool.openFile]
    | none =>
      cases opened : files.touch place with
      | mk made there =>
        cases there with
        | true => simpa [Pool.apply, Pool.openFile, opened] using executed {} _
        | false => simp [Pool.apply, Pool.openFile, opened]

structure Watch where
  handle : Pending := {}
  reply : Reply := .awaited

namespace Watch

inductive Asking where
  | wait
  | check
  | isDone

/-- What an asking shows. -/
inductive Sight where
  /-- There is no outcome yet. A wait that shows nothing has not come back. -/
  | nothing
  | outcome (o : Outcome)
  | done (isDone : Bool)

/-- What an asking shows of an outcome, or of none. -/
def Asking.sees : Asking → Option Outcome → Sight
  | .wait, o | .check, o => o.elim .nothing .outcome
  | .isDone, o => .done o.isSome

inductive Event where
  | ask (q : Asking)
  | answer (o : Outcome) (made : IsAnswer o)
  /-- The writer goes away. -/
  | leave

def ask (s : Watch) : Asking → Sight × Watch
  | .wait =>
    match s.handle.wait s.reply with
    | some (o, handle) => (.outcome o, { s with handle })
    | none => (.nothing, s)
  | .check =>
    let (o, handle) := s.handle.check s.reply
    (o.elim .nothing .outcome, { s with handle })
  | .isDone =>
    let (isDone, handle) := s.handle.isDone s.reply
    (.done isDone, { s with handle })

def sight (s : Watch) (q : Asking) : Sight := (s.ask q).1

/-- A reply that has been awaited. There is only one: who has answered has nothing to answer to any
more, and who has gone does not answer. -/
def settle (s : Watch) (r : Reply) : Watch :=
  match s.reply with
  | .awaited => { s with reply := r }
  | .given _ | .dropped => s

def step (s : Watch) : Event → Watch
  | .ask q => (s.ask q).2
  | .answer o _ => s.settle (.given o)
  | .leave => s.settle .dropped

def run (events : List Event) : Watch := events.foldl step {}

/-- The outcome that an event settles where nothing has been settled yet. -/
def Event.settles? : Event → Option Outcome
  | .ask _ => none
  | .answer o _ => some o
  | .leave => some (.error .writerStopped)

/-- The event with which the writer has done what it does for the write: it has answered and is
heard, or it has gone away without an answer. -/
def Decides (events : List Event) (e : Event) : Prop :=
  ∃ before after, events = before ++ e :: after ∧ ∀ e ∈ before, ∃ q, e = .ask q

def Sound (s : Watch) : Prop := s.handle.Keeps s.reply

variable {s : Watch} {e : Event} {events later : List Event} {q : Asking} {o : Outcome}

/-! ### One event -/

theorem Sound.sight_eq (sound : s.Sound) (q : Asking) : s.sight q = q.sees s.reply.outcome? := by
  cases q with
  | wait =>
    simp only [sight, ask, sound.wait_eq]
    cases s.reply.outcome? <;> rfl
  | check => simp only [sight, ask, sound.check_eq, Asking.sees]
  | isDone => simp only [sight, ask, sound.isDone_eq, Asking.sees]

theorem reply_ask (s : Watch) (q : Asking) : (s.ask q).2.reply = s.reply := by
  cases q with
  | wait => simp only [ask]; split <;> rfl
  | check => rfl
  | isDone => rfl

theorem Sound.ask (sound : s.Sound) (q : Asking) : (s.ask q).2.Sound := by
  rw [Sound, reply_ask]
  cases q with
  | wait =>
    simp only [Watch.ask, sound.wait_eq]
    cases settles : s.reply.outcome? with
    | none => exact sound
    | some o => exact .shown settles
  | check =>
    simp only [Watch.ask, sound.check_eq]
    exact Pending.keeps_elim s.reply
  | isDone =>
    simp only [Watch.ask, sound.isDone_eq]
    exact Pending.keeps_elim s.reply

theorem outcome?_settle (s : Watch) (r : Reply) :
    (s.settle r).reply.outcome? = s.reply.outcome?.or r.outcome? := by
  cases at_reply : s.reply <;> simp [settle, at_reply, Reply.outcome?]

theorem outcome?_step (s : Watch) (e : Event) :
    (s.step e).reply.outcome? = s.reply.outcome?.or e.settles? := by
  cases e with
  | ask q => simp [step, reply_ask, Event.settles?]
  | answer o made => exact outcome?_settle s (.given o)
  | leave => exact outcome?_settle s .dropped

theorem Sound.settle (sound : s.Sound) (r : Reply) : (s.settle r).Sound := by
  have same : (s.settle r).handle = s.handle := by
    unfold Watch.settle
    split <;> rfl
  rw [Sound, same]
  -- A handle that has shown an outcome has it from a reply that does not change any more.
  refine sound.mono fun o settled => ?_
  rw [outcome?_settle, settled, Option.some_or]

theorem Sound.step (sound : s.Sound) (e : Event) : (s.step e).Sound := by
  cases e with
  | ask q => exact sound.ask q
  | answer o made => exact sound.settle (.given o)
  | leave => exact sound.settle .dropped

/-! ### A run -/

theorem Sound.foldl (sound : s.Sound) (events : List Event) : (events.foldl Watch.step s).Sound := by
  induction events generalizing s with
  | nil => exact sound
  | cons e rest ih => exact ih (sound.step e)

theorem sound_run (events : List Event) : (run events).Sound :=
  Sound.foldl (s := {}) .listening events

theorem outcome?_foldl (s : Watch) (events : List Event) :
    (events.foldl step s).reply.outcome? =
      s.reply.outcome?.or (events.findSome? Event.settles?) := by
  induction events generalizing s with
  | nil => simp
  | cons e rest ih =>
    rw [List.foldl_cons, ih, outcome?_step, Option.or_assoc, List.findSome?_cons]
    cases e.settles? <;> rfl

/-- A handle shows what the writer has done first, however it is asked and whatever it has been
asked before. -/
theorem sight_run (events : List Event) (q : Asking) :
    (run events).sight q = q.sees (events.findSome? Event.settles?) := by
  rw [(sound_run events).sight_eq, run, outcome?_foldl]
  rfl

theorem settles?_eq_none_iff : e.settles? = none ↔ ∃ q, e = .ask q := by
  cases e <;> simp [Event.settles?]

theorem findSome?_eq_some_iff :
    events.findSome? Event.settles? = some o ↔ ∃ e, Decides events e ∧ e.settles? = some o := by
  rw [List.findSome?_eq_some_iff]
  simp only [settles?_eq_none_iff]
  constructor
  · rintro ⟨before, e, after, rfl, settles, asks⟩
    exact ⟨e, ⟨before, after, rfl, asks⟩, settles⟩
  · rintro ⟨e, ⟨before, after, rfl, asks⟩, settles⟩
    exact ⟨before, e, after, rfl, settles, asks⟩

theorem sees_eq_nothing_iff {o : Option Outcome} : Asking.check.sees o = .nothing ↔ o = none := by
  cases o <;> simp [Asking.sees]

theorem sees_eq_outcome_iff {shown : Option Outcome} :
    Asking.check.sees shown = .outcome o ↔ shown = some o := by
  cases shown <;> simp [Asking.sees]

/-- What is shown of a write, whatever happens in whatever order. A handle listens or has an
outcome. What has been shown once is shown from then on. Nothing is shown as long as there has been
nothing but askings, and done is what shows an outcome. The outcome is the answer of the writer, or
that the writer has stopped, exactly where it has gone away without an answer. -/
theorem sights_of_events (events : List Event) :
    ((run events).handle.listening = true ↔ (run events).handle.outcome = none) ∧
    (∀ q, (run events).sight q ≠ q.sees none →
      ∃ o, ∀ later q', (run (events ++ later)).sight q' = q'.sees (some o)) ∧
    ((run events).sight .check = .nothing ↔ ∀ e ∈ events, ∃ q, e = .ask q) ∧
    ((run events).sight .isDone = .done true ↔ ∃ o, (run events).sight .check = .outcome o) ∧
    (∀ o, (run events).sight .check = .outcome o ↔
      (∃ made, Decides events (.answer o made)) ∨
        Decides events .leave ∧ o = .error .writerStopped) ∧
    ((run events).sight .check = .outcome (.error .writerStopped) ↔ Decides events .leave) := by
  have outcome (o : Outcome) : (run events).sight .check = .outcome o ↔
      (∃ made, Decides events (.answer o made)) ∨
        Decides events .leave ∧ o = .error .writerStopped := by
    rw [sight_run, sees_eq_outcome_iff, findSome?_eq_some_iff]
    constructor
    · rintro ⟨e, decides, settles⟩
      cases e with
      | ask q => cases settles
      | answer o' made =>
        cases settles
        exact .inl ⟨made, decides⟩
      | leave =>
        cases settles
        exact .inr ⟨decides, rfl⟩
    · rintro (⟨made, decides⟩ | ⟨decides, rfl⟩)
      · exact ⟨_, decides, rfl⟩
      · exact ⟨_, decides, rfl⟩
  refine ⟨(sound_run events).listening_iff, fun q shown => ?_, ?_, ?_, outcome, ?_⟩
  · rw [sight_run] at shown
    obtain ⟨o, settles⟩ : ∃ o, events.findSome? Event.settles? = some o :=
      Option.ne_none_iff_exists'.mp fun none => shown (by rw [none])
    refine ⟨o, fun later q' => ?_⟩
    rw [sight_run, List.findSome?_append, settles, Option.some_or]
  · rw [sight_run, sees_eq_nothing_iff, List.findSome?_eq_none_iff]
    simp only [settles?_eq_none_iff]
  · simp only [sight_run, sees_eq_outcome_iff]
    cases events.findSome? Event.settles? <;> simp [Asking.sees]
  · rw [outcome]
    constructor
    · rintro (⟨made, -⟩ | ⟨decides, -⟩)
      · exact absurd rfl made.ne_stopped
      · exact decides
    · exact fun decides => .inr ⟨decides, rfl⟩

/-- A writer that cannot open its file says so, between two looks at the handle, and goes away. -/
theorem sights_of_trouble :
    let made : IsAnswer (.error (.database "disk")) :=
      ⟨{}, ["a.db"], some "disk", none, ⟨0, "", []⟩, rfl⟩
    let events : List Event := [.ask .check, .answer _ made]
    (run events).sight .isDone ≠ Asking.isDone.sees none ∧
      (run (events ++ [.ask .wait, .leave])).sight .check = .outcome (.error (.database "disk")) := by
  intro made events
  have shown : (run events).sight .isDone ≠ Asking.isDone.sees none := by
    have is_done : (run events).sight .isDone = .done true := rfl
    rw [is_done]
    simp [Asking.sees]
  obtain ⟨-, kept, -, -, outcome, -⟩ := sights_of_events events
  obtain ⟨o, from_now_on⟩ := kept .isDone shown
  have now : (run events).sight .check = .outcome (.error (.database "disk")) :=
    (outcome _).mpr (.inl ⟨made, [.ask .check], [], rfl, by simp⟩)
  have same := from_now_on [] .check
  rw [List.append_nil, now] at same
  rw [from_now_on, ← same]
  exact ⟨shown, rfl⟩

end Watch

end ScriptGate.Storage
