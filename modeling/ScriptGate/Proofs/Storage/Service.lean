import ScriptGate.Proofs.Storage.Serving

/-!
# Threads and the tables of a pool

Two tables say which lock and which queue belong to a file. Each is filled when it is first asked,
and has a mutex of its own, so that other threads come in between when a thread connects: it asks
for the lock first (`ask`), and then for the queue (`join`), whose writer is started if there is
none. A `Service` is a pool with these tables. Its locks and queues are known by their numbers, and
all that is done with a queue is what a pool does that has no other lane than this one.
-/

namespace ScriptGate.Storage

/-- A queue of writes, with the lock that its writer has been started with. -/
structure Queue where
  place : Place
  lock : Nat
  waiting : List Write := []
  writer : Writer := .idle
  connection : Option Sql.Connection := none
  /-- Whether its writer is there. -/
  isServed : Bool := true

def Queue.lane (q : Queue) (lock : Lock) : Lane :=
  { lock, waiting := q.waiting, writer := q.writer, connection := q.connection }

def Queue.withLane (q : Queue) (l : Lane) : Queue :=
  { q with waiting := l.waiting, writer := l.writer, connection := l.connection }

/-- A thread that connects and has its lock. -/
structure Caller where
  path : String
  place : Place
  lock : Nat

/-- A connection of a script, with the path that it has been asked for by. -/
structure Handle where
  path : String
  place : Place
  lock : Nat
  queue : Nat
  isOpen : Bool := true
  deriving DecidableEq

def Handle.connection (h : Handle) : Connection := { place := h.place, isOpen := h.isOpen }

structure Reading where
  place : Place
  lock : Nat

def Submission.pool? : Submission → Option Pool
  | .accepted _ p => some p
  | .full | .refused _ => none

/-- The locks and queues that have been made, the tables of them, and who uses them. -/
structure Service where
  files : Files := {}
  locks : List Lock := []
  lockOf : Place → Option Nat := fun _ => none
  queues : List Queue := []
  queueOf : Place → Option Nat := fun _ => none
  callers : List Caller := []
  handles : List Handle := []
  readings : List Reading := []
  replies : Array Reply := #[]

namespace Service

/-! ### Connecting -/

def ask? (s : Service) (path : String) : Option Service := do
  let place ← place? path
  match s.lockOf place with
  | some k => return { s with callers := s.callers ++ [⟨path, place, k⟩] }
  | none =>
    let k := s.locks.length
    return { s with
      locks := s.locks ++ [.free]
      lockOf := fun other => if other = place then some k else s.lockOf other
      callers := s.callers ++ [⟨path, place, k⟩] }

/-- The queue of a file, if its writer is there. -/
def served? (s : Service) (place : Place) : Option Nat :=
  (s.queueOf place).filter fun n => s.queues[n]?.any Queue.isServed

/-- A thread that has its lock asks for the queue of its file. Where there is none that is served, a
writer is started for a new one, which may fail. -/
def join? (s : Service) (n : Nat) (starts : Bool) : Option Service := do
  let c ← s.callers[n]?
  let callers := s.callers.eraseIdx n
  match s.served? c.place with
  | some i =>
    return { s with callers, handles := s.handles ++ [⟨c.path, c.place, c.lock, i, true⟩] }
  | none =>
    if starts then
      let i := s.queues.length
      return { s with
        callers
        queues := s.queues ++ [{ place := c.place, lock := c.lock }]
        queueOf := fun other => if other = c.place then some i else s.queueOf other
        handles := s.handles ++ [⟨c.path, c.place, c.lock, i, true⟩] }
    else return { s with callers }

def close (s : Service) (n : Nat) : Service :=
  { s with handles := s.handles.modify n fun h => { h with isOpen := false } }

/-! ### Queues -/

/-- A pool with one queue for its only lane. -/
def view (s : Service) (q : Queue) (lock : Lock) : Pool :=
  { files := s.files, lanes := [(q.place, q.lane lock)], replies := s.replies }

/-- Puts back what a pool has made of its only lane. -/
def put (s : Service) (n : Nat) (q : Queue) (l : Lane) (p : Pool) : Service :=
  { s with
    files := p.files
    replies := p.replies
    locks := s.locks.set q.lock l.lock
    queues := s.queues.set n (q.withLane l) }

def work? (s : Service) (n : Nat) (f : Queue → Pool → Option Pool) : Option Service := do
  let q ← s.queues[n]?
  let lock ← s.locks[q.lock]?
  if q.isServed then
    let p ← f q (s.view q lock)
    let l ← p.lane? q.place
    return s.put n q l p
  else none

def exec? (s : Service) (n : Nat) (sql : String) (parameters : List Sql.Value) :
    Option Service := do
  let h ← s.handles[n]?
  s.work? h.queue fun _ p => (p.submit h.connection sql parameters).pool?

def advance? (s : Service) (n : Nat) (trouble : Option String) : Option Service :=
  s.work? n fun q p => p.advance q.place trouble

/-- The writer of a queue goes away. Its lock is free then, and what it has not answered remains
without an answer. -/
def stop? (s : Service) (n : Nat) : Option Service := do
  let q ← s.queues[n]?
  let lock ← s.locks[q.lock]?
  if q.isServed then
    let lock := match q.writer with
      | .locked _ => .free
      | _ => lock
    return { s with
      locks := s.locks.set q.lock lock
      queues := s.queues.set n { place := q.place, lock := q.lock, isServed := false }
      replies := (q.lane lock).unanswered.foldl
        (fun replies w => replies.setIfInBounds w.ticket .dropped) s.replies }
  else none

/-! ### Queries -/

/-- A query takes its share of the lock that its connection has. -/
def beginQuery? (s : Service) (n : Nat) : Option Service := do
  let h ← s.handles[n]?
  let lock ← s.locks[h.lock]?
  if h.isOpen then
    return { s with
      locks := s.locks.set h.lock (← lock.share?)
      readings := s.readings ++ [⟨h.place, h.lock⟩] }
  else none

def endQuery? (s : Service) (n : Nat) : Option Service := do
  let r ← s.readings[n]?
  let lock ← s.locks[r.lock]?
  return { s with locks := s.locks.set r.lock lock.unshare, readings := s.readings.eraseIdx n }

/-! ### Runs -/

/-- What can happen. Callers, connections, queues and queries are known by their numbers. -/
inductive Event where
  | ask (path : String)
  | join (caller : Nat) (starts : Bool)
  | exec (handle : Nat) (sql : String) (parameters : List Sql.Value)
  | close (handle : Nat)
  | advance (queue : Nat) (trouble : Option String)
  | stop (queue : Nat)
  | beginQuery (handle : Nat)
  | endQuery (reading : Nat)

/-- One event; nothing where it cannot happen. -/
def step? (s : Service) : Event → Option Service
  | .ask path => s.ask? path
  | .join n starts => s.join? n starts
  | .exec n sql parameters => s.exec? n sql parameters
  | .close n => some (s.close n)
  | .advance n trouble => s.advance? n trouble
  | .stop n => s.stop? n
  | .beginQuery n => s.beginQuery? n
  | .endQuery n => s.endQuery? n

def step (s : Service) (e : Event) : Service := (s.step? e).getD s

/-- What comes of a new pool for a data directory with some files. -/
def run (files : Files) (events : List Event) : Service := events.foldl step { files }

/-! ### What an event changes -/

/-- How the lock of a queue and its writer change. -/
inductive Turns (lock : Lock) (writer : Writer) (lock' : Lock) (writer' : Writer) : Prop where
  | keeps (same : lock' = lock) (locked : ∀ w, writer' = .locked w → writer = .locked w)
  | locks (free : lock = .free) (held : lock' = .exclusive)
  | frees {w : Write} (locked : writer = .locked w) (free : lock' = .free)
      (done : ∀ w, writer' ≠ .locked w)

/-- What an event changes that can happen. -/
inductive Moves (s : Service) : Event → Service → Prop where
  | knows {path : String} {place : Place} {k : Nat} (named : place? path = some place)
      (made : s.lockOf place = some k) :
      Moves s (.ask path) { s with callers := s.callers ++ [⟨path, place, k⟩] }
  | makes {path : String} {place : Place} (named : place? path = some place)
      (missing : s.lockOf place = none) :
      Moves s (.ask path) { s with
        locks := s.locks ++ [.free]
        lockOf := fun other => if other = place then some s.locks.length else s.lockOf other
        callers := s.callers ++ [⟨path, place, s.locks.length⟩] }
  | joins {n i : Nat} {starts : Bool} {c : Caller} (asked : s.callers[n]? = some c)
      (served : s.served? c.place = some i) :
      Moves s (.join n starts) { s with
        callers := s.callers.eraseIdx n
        handles := s.handles ++ [⟨c.path, c.place, c.lock, i, true⟩] }
  | starts {n : Nat} {c : Caller} (asked : s.callers[n]? = some c)
      (unserved : s.served? c.place = none) :
      Moves s (.join n true) { s with
        callers := s.callers.eraseIdx n
        queues := s.queues ++ [{ place := c.place, lock := c.lock }]
        queueOf := fun other => if other = c.place then some s.queues.length else s.queueOf other
        handles := s.handles ++ [⟨c.path, c.place, c.lock, s.queues.length, true⟩] }
  | fails {n : Nat} : Moves s (.join n false) { s with callers := s.callers.eraseIdx n }
  | close (n : Nat) : Moves s (.close n) (s.close n)
  | works {e : Event} {n : Nat} {q : Queue} {lock : Lock} {l : Lane} {p : Pool}
      (found : s.queues[n]? = some q) (its_lock : s.locks[q.lock]? = some lock)
      (served : q.isServed = true) (turns : Turns lock q.writer l.lock l.writer) :
      Moves s e (s.put n q l p)
  | stops {n : Nat} {q : Queue} {lock lock' : Lock} {replies : Array Reply}
      (found : s.queues[n]? = some q) (its_lock : s.locks[q.lock]? = some lock)
      (turns : Turns lock q.writer lock' .idle) :
      Moves s (.stop n) { s with
        locks := s.locks.set q.lock lock'
        queues := s.queues.set n { place := q.place, lock := q.lock, isServed := false }
        replies }
  | reads {n k : Nat} {h : Handle} (found : s.handles[n]? = some h)
      (shared : s.locks[h.lock]? = some (.shared k)) :
      Moves s (.beginQuery n) { s with
        locks := s.locks.set h.lock (.shared (k + 1))
        readings := s.readings ++ [⟨h.place, h.lock⟩] }
  | ends {n : Nat} {r : Reading} {lock : Lock} (found : s.readings[n]? = some r)
      (its_lock : s.locks[r.lock]? = some lock) :
      Moves s (.endQuery n) { s with
        locks := s.locks.set r.lock lock.unshare
        readings := s.readings.eraseIdx n }

variable {s t : Service} {e : Event}

theorem ask?_moves {path : String} (moved : s.ask? path = some t) : Moves s (.ask path) t := by
  unfold ask? at moved
  obtain ⟨place, named, moved⟩ := Option.bind_eq_some_iff.mp moved
  split at moved
  · rename_i k made
    cases moved
    exact .knows named made
  · rename_i missing
    cases moved
    exact .makes named missing

theorem join?_moves {n : Nat} {starts : Bool} (moved : s.join? n starts = some t) :
    Moves s (.join n starts) t := by
  unfold join? at moved
  obtain ⟨c, asked, moved⟩ := Option.bind_eq_some_iff.mp moved
  split at moved
  · rename_i i served
    cases moved
    exact .joins asked served
  · rename_i unserved
    cases starts with
    | true =>
      cases moved
      exact .starts asked unserved
    | false =>
      cases moved
      exact .fails

theorem work?_cases {n : Nat} {f : Queue → Pool → Option Pool} (moved : s.work? n f = some t) :
    ∃ q lock p l, s.queues[n]? = some q ∧ s.locks[q.lock]? = some lock ∧ q.isServed = true ∧
      f q (s.view q lock) = some p ∧ p.lane? q.place = some l ∧ t = s.put n q l p := by
  unfold work? at moved
  obtain ⟨q, found, moved⟩ := Option.bind_eq_some_iff.mp moved
  obtain ⟨lock, its_lock, moved⟩ := Option.bind_eq_some_iff.mp moved
  split at moved
  · rename_i served
    obtain ⟨p, made, moved⟩ := Option.bind_eq_some_iff.mp moved
    obtain ⟨l, lane, moved⟩ := Option.bind_eq_some_iff.mp moved
    cases moved
    exact ⟨q, lock, p, l, found, its_lock, served, made, lane, rfl⟩
  · cases moved

theorem lane?_view {place : Place} {q : Queue} {lock : Lock} {l : Lane}
    (found : (s.view q lock).lane? place = some l) : place = q.place ∧ l = q.lane lock := by
  unfold view Pool.lane? at found
  rw [Pool.lookup_cons_eq] at found
  split at found
  · rename_i here
    cases found
    exact ⟨here, rfl⟩
  · cases found

theorem lane_of_edits {p p' : Pool} {place : Place} {before l l' : Lane}
    (edits : p.Edits place before l' p') (lane : p'.lane? place = some l) : l = l' := by
  rw [edits.lane?, if_pos rfl] at lane
  exact (Option.some.inj lane).symm

theorem exec?_moves {n : Nat} {sql : String} {parameters : List Sql.Value}
    (moved : s.exec? n sql parameters = some t) : Moves s (.exec n sql parameters) t := by
  unfold exec? at moved
  obtain ⟨h, opened, moved⟩ := Option.bind_eq_some_iff.mp moved
  obtain ⟨q, lock, p, l, found, its_lock, served, made, lane, rfl⟩ := work?_cases moved
  cases submitted : (s.view q lock).submit h.connection sql parameters with
  | accepted ticket v =>
    rw [submitted] at made
    cases made
    obtain ⟨before, -, at_, -, -, rfl⟩ := Pool.submit_accepted submitted
    obtain ⟨here, rfl⟩ := lane?_view at_
    rw [here] at at_ lane
    obtain rfl := lane_of_edits ⟨at_, rfl⟩ lane
    exact .works found its_lock served (.keeps rfl fun _ => id)
  | full =>
    rw [submitted] at made
    cases made
  | refused f =>
    rw [submitted] at made
    cases made

theorem advance?_moves {n : Nat} {trouble : Option String}
    (moved : s.advance? n trouble = some t) : Moves s (.advance n trouble) t := by
  obtain ⟨q, lock, p, l, found, its_lock, served, made, lane, rfl⟩ := work?_cases moved
  refine .works found its_lock served ?_
  obtain ⟨before, at_, advances⟩ := Pool.advance_cases made
  obtain ⟨-, rfl⟩ := lane?_view at_
  cases advances with
  | take idle next =>
    obtain rfl := lane_of_edits ⟨at_, rfl⟩ lane
    exact .keeps rfl fun _ other => by cases other
  | lock taken free =>
    obtain rfl := lane_of_edits ⟨at_, rfl⟩ lane
    exact .locks free rfl
  | apply locked gives =>
    obtain rfl := lane_of_edits ⟨at_, rfl⟩ lane
    exact .frees locked rfl fun _ other => by cases other
  | answer applied =>
    obtain rfl := lane_of_edits ⟨at_, rfl⟩ lane
    exact .keeps rfl fun _ other => by cases other

theorem stop?_moves {n : Nat} (moved : s.stop? n = some t) : Moves s (.stop n) t := by
  unfold stop? at moved
  obtain ⟨q, found, moved⟩ := Option.bind_eq_some_iff.mp moved
  obtain ⟨lock, its_lock, moved⟩ := Option.bind_eq_some_iff.mp moved
  split at moved
  · cases moved
    refine .stops found its_lock ?_
    cases at_ : q.writer with
    | locked w => exact .frees rfl rfl fun _ other => by cases other
    | _ => exact .keeps rfl fun _ other => by cases other
  · cases moved

theorem beginQuery?_moves {n : Nat} (moved : s.beginQuery? n = some t) :
    Moves s (.beginQuery n) t := by
  unfold beginQuery? at moved
  obtain ⟨h, found, moved⟩ := Option.bind_eq_some_iff.mp moved
  obtain ⟨lock, its_lock, moved⟩ := Option.bind_eq_some_iff.mp moved
  split at moved
  · cases lock with
    | exclusive => cases moved
    | shared k =>
      cases moved
      exact .reads found its_lock
  · cases moved

theorem endQuery?_moves {n : Nat} (moved : s.endQuery? n = some t) :
    Moves s (.endQuery n) t := by
  unfold endQuery? at moved
  obtain ⟨r, found, moved⟩ := Option.bind_eq_some_iff.mp moved
  obtain ⟨lock, its_lock, moved⟩ := Option.bind_eq_some_iff.mp moved
  cases moved
  exact .ends found its_lock

theorem step_cases (s : Service) (e : Event) : s.step e = s ∨ Moves s e (s.step e) := by
  cases moved : s.step? e with
  | none => exact .inl (by rw [step, moved, Option.getD_none])
  | some t =>
    rw [step, moved, Option.getD_some]
    right
    cases e with
    | ask path => exact ask?_moves moved
    | join n starts => exact join?_moves moved
    | exec n sql parameters => exact exec?_moves moved
    | close n =>
      cases moved
      exact .close n
    | advance n trouble => exact advance?_moves moved
    | stop n => exact stop?_moves moved
    | beginQuery n => exact beginQuery?_moves moved
    | endQuery n => exact endQuery?_moves moved

/-- What is kept by every change that is allowed is kept by a run of them. -/
theorem run_keeps {P : Service → Prop} {A : Event → Prop}
    (keeps : ∀ s e t, A e → Moves s e t → P s → P t) {files : Files} {events : List Event}
    (every : ∀ e ∈ events, A e) (start : P { files }) : P (run files events) := by
  have along : Run.Along step (fun _ e => A e) { files } events :=
    Run.along_of_mem (fun e member _ => every e member) _
  refine Run.run_keeps (fun s e is_allowed holds => ?_) along start
  rcases step_cases s e with same | moves
  · rwa [same]
  · exact keeps s e _ is_allowed moves holds

end Service

end ScriptGate.Storage
