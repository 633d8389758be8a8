import Mathlib.Data.List.Nodup
import ScriptGate.Proofs.Run
import ScriptGate.Proofs.Storage.Pool

/-!
# The writes of a run

A `Ledger` keeps beside a pool the writes that its queues have accepted and those that its writers
have applied, in order. Any number of connections hand in writes and are closed, queries hold locks,
handles are asked, and writers make their steps one at a time, some of which fail to open their
file. `Changes` says what an event changes, and every invariant of a run is kept by each of its
cases.
-/

namespace ScriptGate.Storage

/-- A write that a writer has applied: what kept the writer from opening its file, if it had to, and
what came of it. -/
structure Application where
  place : Place
  write : Write
  trouble : Option String
  outcome : Outcome

/-- The files, and the connections of the writers. -/
structure Store where
  files : Files := {}
  connections : Place → Option Sql.Connection := fun _ => none

/-- The store after a write, and the outcome. -/
def Store.apply (s : Store) (a : Application) : Store × Outcome :=
  let (files, connection, outcome) :=
    Pool.apply s.files a.place a.trouble (s.connections a.place) a.write
  (⟨files, fun place => if place = a.place then connection else s.connections place⟩, outcome)

/-- The store after writes that are applied one after the other. -/
def Store.replay (writes : List Application) : Store :=
  writes.foldl (fun s a => (s.apply a).1) {}

theorem Store.replay_append (writes : List Application) (a : Application) :
    replay (writes ++ [a]) = ((replay writes).apply a).1 := by
  simp [replay]

/-- A pool, the connections that have been given out, the handles on the writes by their tickets,
and the writes that have been accepted and applied. -/
structure Ledger where
  pool : Pool := {}
  connections : List Connection := []
  handles : List Pending := []
  accepted : List (Place × Write) := []
  applied : List Application := []

/-- A lane keeps no more writes waiting than allowed, and its writer holds the lock while it
applies one. -/
structure Lane.Sound (l : Lane) : Prop where
  room : l.waiting.length ≤ capacity
  lock : l.lock = .exclusive ↔ ∃ w, l.writer = .locked w

namespace Ledger

/-- What can happen. Connections are numbered from zero. -/
inductive Event where
  | connect (path : String)
  | exec (connection : Nat) (sql : String) (parameters : List Sql.Value)
  | close (connection : Nat)
  /-- The writer of a file makes a step. -/
  | advance (place : Place) (trouble : Option String)
  | beginQuery (connection : Nat)
  | endQuery (place : Place)
  /-- A handle is waited for. -/
  | wait (ticket : Nat)
  | check (ticket : Nat)

/-- The file whose writer makes a step. -/
def Event.writer? : Event → Option Place
  | .advance place _ => some place
  | _ => none

/-- The write that a step of a writer has applied. -/
def applications (before after : Pool) (place : Place) (trouble : Option String) :
    List Application :=
  match (before.lane? place).map Lane.writer, (after.lane? place).map Lane.writer with
  | some (.locked _), some (.applied w outcome) => [⟨place, w, trouble, outcome⟩]
  | _, _ => []

/-- One event. A write that finds its queue full is not accepted: the caller waits and tries
again. -/
def step (s : Ledger) : Event → Ledger
  | .connect path =>
    match s.pool.connect path with
    | .ok (c, pool) => { s with pool, connections := s.connections ++ [c] }
    | .error _ => s
  | .exec n sql parameters =>
    match s.connections[n]? with
    | none => s
    | some c =>
      match s.pool.submit c sql parameters with
      | .accepted ticket pool =>
        { s with
          pool
          handles := s.handles ++ [{}]
          accepted := s.accepted ++ [(c.place, ⟨ticket, sql, parameters⟩)] }
      | .full | .refused _ => s
  | .close n => { s with connections := s.connections.modify n Connection.close }
  | .advance place trouble =>
    match s.pool.advance place trouble with
    | none => s
    | some pool =>
      { s with pool, applied := s.applied ++ applications s.pool pool place trouble }
  | .beginQuery n =>
    match s.connections[n]? with
    | none => s
    | some c =>
      match if c.isOpen then s.pool.beginQuery c.place else none with
      | some pool => { s with pool }
      | none => s
  | .endQuery place =>
    match s.pool.endQuery place with
    | some pool => { s with pool }
    | none => s
  | .wait ticket =>
    match s.handles[ticket]? with
    | none => s
    | some h =>
      match h.wait (s.pool.reply ticket) with
      | some (_, h) => { s with handles := s.handles.set ticket h }
      | none => s
  | .check ticket =>
    match s.handles[ticket]? with
    | none => s
    | some h => { s with handles := s.handles.set ticket (h.check (s.pool.reply ticket)).2 }

def run (events : List Event) : Ledger := events.foldl step {}

def acceptedAt (s : Ledger) (place : Place) : List Write :=
  (s.accepted.filter (·.1 = place)).map Prod.snd

def applicationsAt (s : Ledger) (place : Place) : List Application :=
  s.applied.filter (·.place = place)

def appliedAt (s : Ledger) (place : Place) : List Write :=
  (s.applicationsAt place).map Application.write

/-! ### What an event changes -/

variable {s s' : Ledger} {e : Event} {place : Place}

/-- What an event changes that changes anything. -/
inductive Changes (s : Ledger) : Event → Ledger → Prop where
  | connect {path : String} {c : Connection} {pool : Pool}
      (connected : s.pool.connect path = .ok (c, pool)) :
      Changes s (.connect path) { s with pool, connections := s.connections ++ [c] }
  | accept {n : Nat} {c : Connection} {l : Lane} {w : Write} {pool : Pool}
      (found : s.connections[n]? = some c) (is_open : c.isOpen = true)
      (edits : s.pool.Edits c.place l { l with waiting := l.waiting ++ [w] } pool)
      (room : l.waiting.length < capacity) (ticket : w.ticket = s.pool.replies.size)
      (files : pool.files = s.pool.files) (replies : pool.replies = s.pool.replies.push .awaited) :
      Changes s (.exec n w.sql w.parameters)
        { s with pool, handles := s.handles ++ [{}], accepted := s.accepted ++ [(c.place, w)] }
  | close (n : Nat) :
      Changes s (.close n) { s with connections := s.connections.modify n Connection.close }
  | take {place : Place} {trouble : Option String} {l : Lane} {w : Write} {rest : List Write}
      {pool : Pool} (idle : l.writer = .idle) (next : l.waiting = w :: rest)
      (edits : s.pool.Edits place l { l with waiting := rest, writer := .taken w } pool)
      (files : pool.files = s.pool.files) (replies : pool.replies = s.pool.replies) :
      Changes s (.advance place trouble) { s with pool }
  | lock {place : Place} {trouble : Option String} {l : Lane} {w : Write} {pool : Pool}
      (taken : l.writer = .taken w) (free : l.lock = .free)
      (edits : s.pool.Edits place l { l with lock := .exclusive, writer := .locked w } pool)
      (files : pool.files = s.pool.files) (replies : pool.replies = s.pool.replies) :
      Changes s (.advance place trouble) { s with pool }
  | apply {place : Place} {trouble : Option String} {l : Lane} {w : Write} {files : Files}
      {connection : Option Sql.Connection} {outcome : Outcome} {pool : Pool}
      (locked : l.writer = .locked w)
      (gives : Pool.apply s.pool.files place trouble l.connection w =
        (files, connection, outcome))
      (edits : s.pool.Edits place l
        { l with lock := .free, writer := .applied w outcome, connection } pool)
      (is_files : pool.files = files) (replies : pool.replies = s.pool.replies) :
      Changes s (.advance place trouble)
        { s with pool, applied := s.applied ++ [⟨place, w, trouble, outcome⟩] }
  | answer {place : Place} {trouble : Option String} {l : Lane} {w : Write} {outcome : Outcome}
      {pool : Pool} (applied : l.writer = .applied w outcome)
      (edits : s.pool.Edits place l { l with writer := .idle } pool)
      (files : pool.files = s.pool.files)
      (replies : pool.replies = s.pool.replies.setIfInBounds w.ticket (.given outcome)) :
      Changes s (.advance place trouble) { s with pool }
  | query {e : Event} {place : Place} {l : Lane} {lock : Lock} {pool : Pool}
      (quiet : e.writer? = none) (same : lock = .exclusive ↔ l.lock = .exclusive)
      (edits : s.pool.Edits place l { l with lock } pool)
      (files : pool.files = s.pool.files) (replies : pool.replies = s.pool.replies) :
      Changes s e { s with pool }
  | wait {ticket : Nat} {h h' : Pending} {o : Outcome} (found : s.handles[ticket]? = some h)
      (shows : h.wait (s.pool.reply ticket) = some (o, h')) :
      Changes s (.wait ticket) { s with handles := s.handles.set ticket h' }
  | check {ticket : Nat} {h : Pending} (found : s.handles[ticket]? = some h) :
      Changes s (.check ticket)
        { s with handles := s.handles.set ticket (h.check (s.pool.reply ticket)).2 }

theorem applications_of_edits {before after : Pool} {l l' : Lane}
    (edits : before.Edits place l l' after) (trouble : Option String) :
    applications before after place trouble = match l.writer, l'.writer with
      | .locked _, .applied w outcome => [⟨place, w, trouble, outcome⟩]
      | _, _ => [] := by
  rw [applications, edits.found, edits.lane?, if_pos rfl, Option.map_some, Option.map_some]
  cases l.writer <;> cases l'.writer <;> rfl

theorem changes_advance {trouble : Option String} {pool : Pool}
    (advanced : s.pool.advance place trouble = some pool) :
    Changes s (.advance place trouble)
      { s with pool, applied := s.applied ++ applications s.pool pool place trouble } := by
  obtain ⟨l, found, advances⟩ := Pool.advance_cases advanced
  cases advances with
  | @take w rest idle next =>
    have edits : s.pool.Edits place l { l with waiting := rest, writer := .taken w } _ :=
      ⟨found, rfl⟩
    rw [applications_of_edits edits, idle, List.append_nil]
    exact .take idle next edits rfl rfl
  | @lock w taken free =>
    have edits : s.pool.Edits place l { l with lock := .exclusive, writer := .locked w } _ :=
      ⟨found, rfl⟩
    rw [applications_of_edits edits, taken, List.append_nil]
    exact .lock taken free edits rfl rfl
  | @apply w files connection outcome locked gives =>
    have edits : s.pool.Edits place l
        { l with lock := .free, writer := .applied w outcome, connection }
        { s.pool.setLane place
          { l with lock := .free, writer := .applied w outcome, connection } with files } :=
      ⟨found, rfl⟩
    rw [applications_of_edits edits, locked]
    exact .apply locked gives edits rfl rfl
  | @answer w outcome applied =>
    have edits : s.pool.Edits place l { l with writer := .idle }
        { s.pool.setLane place { l with writer := .idle } with
          replies := s.pool.replies.setIfInBounds w.ticket (.given outcome) } := ⟨found, rfl⟩
    rw [applications_of_edits edits, applied, List.append_nil]
    exact .answer applied edits rfl rfl

theorem step_cases (s : Ledger) (e : Event) : s.step e = s ∨ Changes s e (s.step e) := by
  cases e with
  | connect path =>
    simp only [step]
    split
    · rename_i connected
      exact .inr (.connect connected)
    · exact .inl rfl
  | exec n sql parameters =>
    simp only [step]
    split
    · exact .inl rfl
    · rename_i c found
      split
      · rename_i ticket pool accepted
        obtain ⟨l, is_open, lane, room, rfl, rfl⟩ := Pool.submit_accepted accepted
        exact .inr (.accept (w := ⟨_, sql, parameters⟩) found is_open ⟨lane, rfl⟩ room rfl rfl rfl)
      all_goals exact .inl rfl
  | close n => exact .inr (.close n)
  | advance place trouble =>
    simp only [step]
    split
    · exact .inl rfl
    · rename_i advanced
      exact .inr (changes_advance advanced)
  | beginQuery n =>
    simp only [step]
    split
    · exact .inl rfl
    · split
      · rename_i begun
        split at begun
        · obtain ⟨l, lock, found, free, rfl⟩ := Pool.beginQuery_cases begun
          exact .inr (.query rfl (by simp [free]) ⟨found, rfl⟩ rfl rfl)
        · cases begun
      · exact .inl rfl
  | endQuery place =>
    simp only [step]
    split
    · rename_i ended
      obtain ⟨l, found, rfl⟩ := Pool.endQuery_cases ended
      refine .inr (.query rfl ?_ ⟨found, rfl⟩ rfl rfl)
      cases l.lock <;> simp [Lock.unshare]
    · exact .inl rfl
  | wait ticket =>
    simp only [step]
    split
    · exact .inl rfl
    · rename_i found
      split
      · rename_i shows
        exact .inr (.wait found shows)
      · exact .inl rfl
  | check ticket =>
    simp only [step]
    split
    · exact .inl rfl
    · rename_i found
      exact .inr (.check found)

/-- What is kept by every change is kept by every run. -/
theorem foldl_keeps {P : Ledger → Prop} (keeps : ∀ s e s', Changes s e s' → P s → P s')
    (events : List Event) (start : P s) : P (events.foldl step s) := by
  have every : Run.Along step (fun _ _ => True) s events := Run.along_of_mem (by simp) s
  refine Run.run_keeps (fun s e _ holds => ?_) every start
  rcases step_cases s e with same | changes
  · rwa [same]
  · exact keeps s e _ changes holds

theorem run_append (events more : List Event) :
    run (events ++ more) = more.foldl step (run events) :=
  List.foldl_append

/-! ### Order -/

theorem acceptedAt_append {w : Write} (accepted : s'.accepted = s.accepted ++ [(place, w)])
    (other : Place) : s'.acceptedAt other =
      if other = place then s.acceptedAt other ++ [w] else s.acceptedAt other := by
  by_cases same : other = place
  · simp [acceptedAt, accepted, same]
  · simp [acceptedAt, accepted, same, Ne.symm same]

theorem appliedAt_append {a : Application} (applied : s'.applied = s.applied ++ [a])
    (other : Place) : s'.appliedAt other =
      if other = a.place then s.appliedAt other ++ [a.write] else s.appliedAt other := by
  by_cases same : other = a.place
  · simp [appliedAt, applicationsAt, applied, same]
  · simp [appliedAt, applicationsAt, applied, same, Ne.symm same]

theorem applicationsAt_congr (applied : s'.applied = s.applied) (other : Place) :
    s'.applicationsAt other = s.applicationsAt other := by
  rw [applicationsAt, applied, applicationsAt]

theorem pendingAt_connect {path : String} {c : Connection} {pool : Pool}
    (connected : s.pool.connect path = .ok (c, pool)) (other : Place) :
    pool.pendingAt other = s.pool.pendingAt other := by
  obtain ⟨-, -, lanes⟩ := Pool.lane?_connect connected
  rw [Pool.pendingAt, lanes]
  split
  · rw [Pool.pendingAt]
    cases s.pool.lane? other <;> rfl
  · rfl

/-- The accepted writes on a file are those that have been applied and then those that wait, each
once and in the order in which they were accepted. The answer to a write is kept under a number of
its own. -/
structure InOrder (s : Ledger) : Prop where
  order : ∀ place, s.acceptedAt place = s.appliedAt place ++ s.pool.pendingAt place
  tickets : s.accepted.map (·.2.ticket) = List.range s.pool.replies.size

theorem inOrder_changes (changes : Changes s e s') (holds : s.InOrder) : s'.InOrder := by
  obtain ⟨order, tickets⟩ := holds
  cases changes with
  | connect connected =>
    obtain ⟨-, replies, -⟩ := Pool.lane?_connect connected
    refine ⟨fun other => ?_, by simpa [replies] using tickets⟩
    rw [pendingAt_connect connected]
    exact order other
  | close n => exact ⟨order, tickets⟩
  | wait found shows => exact ⟨order, tickets⟩
  | check found => exact ⟨order, tickets⟩
  | @accept n c l w pool found is_open edits room ticket files replies =>
    refine ⟨fun other => ?_, ?_⟩
    · have before := order other
      rw [acceptedAt_append rfl, edits.pendingAt]
      split
      · rename_i same
        subst same
        -- The new write is behind all that wait.
        rw [before, Pool.pendingAt_eq edits.found, Lane.pending, List.append_assoc,
          List.append_assoc]
        rfl
      · exact before
    · rw [List.map_append, tickets, replies, Array.size_push, List.range_succ, List.map_singleton,
        ticket]
  | take idle next edits files replies =>
    refine ⟨fun other => ?_, by simpa [replies] using tickets⟩
    rw [edits.pendingAt_same (by simp [Lane.pending, Writer.inHand, idle, next])]
    exact order other
  | lock taken free edits files replies =>
    refine ⟨fun other => ?_, by simpa [replies] using tickets⟩
    rw [edits.pendingAt_same (by simp [Lane.pending, Writer.inHand, taken])]
    exact order other
  | @apply place trouble l w files connection outcome pool locked gives edits is_files replies =>
    refine ⟨fun other => ?_, by simpa [replies] using tickets⟩
    have before := order other
    rw [appliedAt_append rfl, edits.pendingAt]
    split
    · rename_i same
      subst same
      -- The write in hand was the first of those to come, and is the last one applied now.
      rw [Pool.pendingAt_eq edits.found, Lane.pending, locked] at before
      rw [List.append_assoc]
      exact before
    · exact before
  | answer applied edits files replies =>
    refine ⟨fun other => ?_, by simpa [replies] using tickets⟩
    rw [edits.pendingAt_same (by simp [Lane.pending, Writer.inHand, applied])]
    exact order other
  | query quiet same edits files replies =>
    refine ⟨fun other => ?_, by simpa [replies] using tickets⟩
    rw [edits.pendingAt_same rfl]
    exact order other

theorem mem_acceptedAt {w : Write} : w ∈ s.acceptedAt place ↔ (place, w) ∈ s.accepted := by
  simp [acceptedAt]

theorem mem_appliedAt {w : Write} :
    w ∈ s.appliedAt place ↔ ∃ a ∈ s.applied, a.place = place ∧ a.write = w := by
  simp [appliedAt, applicationsAt, and_assoc]

theorem InOrder.accepted_of_pending (holds : s.InOrder) {w : Write}
    (member : w ∈ s.pool.pendingAt place) : (place, w) ∈ s.accepted := by
  rw [← mem_acceptedAt, holds.order]
  exact List.mem_append_right _ member

theorem InOrder.accepted_of_applied (holds : s.InOrder) {a : Application}
    (member : a ∈ s.applied) : (a.place, a.write) ∈ s.accepted := by
  rw [← mem_acceptedAt, holds.order]
  exact List.mem_append_left _ (mem_appliedAt.mpr ⟨a, member, rfl, rfl⟩)

theorem InOrder.nodup (holds : s.InOrder) : (s.accepted.map (·.2.ticket)).Nodup := by
  rw [holds.tickets]
  exact List.nodup_range

/-- A ticket belongs to one accepted write. -/
theorem InOrder.unique (holds : s.InOrder) {x y : Place × Write} (first : x ∈ s.accepted)
    (second : y ∈ s.accepted) (same : x.2.ticket = y.2.ticket) : x = y :=
  List.inj_on_of_nodup_map holds.nodup first second same

theorem InOrder.ticket_lt (holds : s.InOrder) {x : Place × Write} (member : x ∈ s.accepted) :
    x.2.ticket < s.pool.replies.size := by
  rw [← List.mem_range, ← holds.tickets]
  exact List.mem_map_of_mem member

theorem InOrder.nodup_at (holds : s.InOrder) (place : Place) : (s.acceptedAt place).Nodup :=
  ((holds.nodup.of_map _).filter _).map_on fun x first y second same => by
    have places : x.1 = y.1 := by
      simp only [List.mem_filter, decide_eq_true_eq] at first second
      rw [first.2, second.2]
    exact Prod.ext places same

/-- What has been applied does not wait any more. -/
theorem InOrder.not_pending (holds : s.InOrder) {a : Application} (member : a ∈ s.applied)
    {w : Write} (waits : w ∈ s.pool.pendingAt place) : w.ticket ≠ a.write.ticket := by
  intro same
  have pair :=
    holds.unique (holds.accepted_of_pending waits) (holds.accepted_of_applied member) same
  obtain ⟨rfl, rfl⟩ := Prod.mk.inj pair
  have nodup := holds.nodup_at a.place
  rw [holds.order, List.nodup_append] at nodup
  exact nodup.2.2 _ (mem_appliedAt.mpr ⟨a, member, rfl, rfl⟩) _ waits rfl

end Ledger

end ScriptGate.Storage
