import ScriptGate.Proofs.Storage.Sharing

/-!
# Threads amount to a pool

As long as no writer goes away, what threads do to the tables, locks and queues of a service is
what connections do to a pool with a lane for each file, which a ledger keeps account of.
-/

namespace ScriptGate.Storage

namespace Pool

variable {p v : Pool} {place : Place} {trouble : Option String}

def alone (p : Pool) (place : Place) (l : Lane) : Pool := { p with lanes := [(place, l)] }

/-- A pool with what has become of the lane of one file alone. -/
def takeOver (p : Pool) (place : Place) (l : Lane) (v : Pool) : Pool :=
  { p.setLane place l with files := v.files, replies := v.replies }

theorem lane?_alone (p : Pool) (place : Place) (l : Lane) :
    (p.alone place l).lane? place = some l := by
  simp [alone, lane?]

/-- What a writer does depends on its lane, on the files and on the answers. -/
theorem advance_alone {l : Lane} (found : p.lane? place = some l) :
    p.advance place trouble = ((p.alone place l).advance place trouble).bind fun v =>
      (v.lane? place).map fun l' => p.takeOver place l' v := by
  have lane := lane?_alone p place l
  cases at_ : l.writer with
  | idle =>
    cases waits : l.waiting with
    | nil => simp [advance, found, lane, at_, waits]
    | cons w rest =>
      simp only [advance, found, lane, at_, waits, Option.bind_eq_bind, Option.bind_some]
      simp [alone, setLane, lane?, takeOver]
  | taken w =>
    cases free : l.lock.exclude? with
    | none => simp [advance, found, lane, at_, free]
    | some lock =>
      simp only [advance, found, lane, at_, free, Option.bind_eq_bind, Option.bind_some]
      simp [alone, setLane, lane?, takeOver]
  | locked w =>
    simp only [advance, found, lane, at_, Option.bind_eq_bind, Option.bind_some]
    simp [alone, setLane, lane?, takeOver]
  | applied w outcome =>
    simp only [advance, found, lane, at_, Option.bind_eq_bind, Option.bind_some]
    simp [alone, setLane, lane?, takeOver]

theorem submit_alone {l : Lane} {c : Connection} (sql : String) (parameters : List Sql.Value)
    (found : p.lane? c.place = some l) :
    match (p.alone c.place l).submit c sql parameters with
    | .accepted ticket v => ∃ l', v.lane? c.place = some l' ∧
      p.submit c sql parameters = .accepted ticket (p.takeOver c.place l' v)
    | .full => p.submit c sql parameters = .full
    | .refused f => p.submit c sql parameters = .refused f := by
  have lane := lane?_alone p c.place l
  unfold submit
  rw [found, lane]
  by_cases is_open : c.isOpen = true
  · by_cases full : capacity ≤ l.waiting.length
    · simp [is_open, full]
    · simp [is_open, full, alone, setLane, lane?, takeOver]
  · simp [is_open]

theorem lookup_map_eq_some {α : Type} {f : α → Place × Lane} {xs : List α} {x : α} {place : Place}
    (member : x ∈ xs) (here : (f x).1 = place)
    (only : ∀ y ∈ xs, (f y).1 = place → (f y).2 = (f x).2) :
    (xs.map f).lookup place = some (f x).2 := by
  induction xs with
  | nil => cases member
  | cons y rest ih =>
    rw [List.map_cons, show f y = ((f y).1, (f y).2) from rfl, lookup_cons_eq]
    by_cases first : place = (f y).1
    · rw [if_pos first, only y List.mem_cons_self first.symm]
    · rw [if_neg first]
      rcases List.mem_cons.mp member with rfl | later
      · exact absurd here.symm first
      · exact ih later fun z member => only z (List.mem_cons_of_mem y member)

theorem lookup_map_eq_none {α : Type} {f : α → Place × Lane} {xs : List α} {place : Place}
    (elsewhere : ∀ x ∈ xs, (f x).1 ≠ place) : (xs.map f).lookup place = none := by
  rw [List.lookup_eq_none_iff]
  intro entry member
  obtain ⟨x, x_member, rfl⟩ := List.mem_map.mp member
  simpa using (elsewhere x x_member).symm

end Pool

namespace Service

/-- The pool that a service amounts to. -/
def pool (s : Service) : Pool where
  files := s.files
  lanes := s.queues.map fun q => (q.place, q.lane ((s.locks[q.lock]?).getD .free))
  replies := s.replies

/-- What an event of a service is to a pool. -/
def ledgerEvents (s : Service) : Event → List Ledger.Event
  | .ask _ | .stop _ => []
  | .join n starts =>
    match s.callers[n]? with
    | some c => if (s.served? c.place).isSome || starts then [.connect c.path] else []
    | none => []
  | .exec n sql parameters => [.exec n sql parameters]
  | .close n => [.close n]
  | .advance n trouble =>
    match s.queues[n]? with
    | some q => [.advance q.place trouble]
    | none => []
  | .beginQuery n => [.beginQuery n]
  | .endQuery n =>
    match s.readings[n]? with
    | some r => [.endQuery r.place]
    | none => []

/-- What a run of a service is to a pool. -/
def history : Service → List Event → List Ledger.Event
  | _, [] => []
  | s, e :: rest => s.ledgerEvents e ++ history (s.step e) rest

/-- A ledger keeps account of a service. -/
structure Shows (s : Service) (t : Ledger) : Prop where
  pool : t.pool = s.pool
  connections : t.connections = s.handles.map Handle.connection

def LocksUsed (s : Service) : Prop :=
  ∀ (k : Nat) (lock : Lock), s.locks[k]? = some lock → lock ≠ .free → ∃ q ∈ s.queues, q.lock = k

/-- A sound service all of whose writers are there. -/
structure Whole (s : Service) : Prop where
  sound : s.Sound
  served : ∀ q ∈ s.queues, q.isServed = true
  used : s.LocksUsed

variable {s : Service} {t : Ledger} {n : Nat} {q : Queue} {lock : Lock} {l : Lane}

theorem Whole.same (holds : s.Whole) {r : Queue} (first : q ∈ s.queues) (second : r ∈ s.queues)
    (place : q.place = r.place) : q = r := by
  obtain ⟨m, at_m⟩ := List.mem_iff_getElem?.mp first
  obtain ⟨n, at_n⟩ := List.mem_iff_getElem?.mp second
  have index := holds.sound.registered.served_unique at_m at_n (holds.served q first)
    (holds.served r second) place
  rw [index, at_n] at at_m
  exact (Option.some.inj at_m).symm

theorem Whole.lane? (holds : s.Whole) (member : q ∈ s.queues)
    (its_lock : s.locks[q.lock]? = some lock) : s.pool.lane? q.place = some (q.lane lock) := by
  have found := Pool.lookup_map_eq_some
    (f := fun q => (q.place, q.lane ((s.locks[q.lock]?).getD .free))) member rfl
    fun r other place => by rw [holds.same other member place]
  rw [its_lock] at found
  exact found

theorem Whole.lanes_set (holds : s.Whole) (found : s.queues[n]? = some q)
    (its_lock : s.locks[q.lock]? = some lock) (l : Lane) :
    ((s.queues.set n (q.withLane l)).map fun r =>
      (r.place, r.lane (((s.locks.set q.lock l.lock)[r.lock]?).getD .free))) =
      (s.pool.setLane q.place l).lanes := by
  refine List.ext_getElem? fun m => ?_
  simp only [pool, Pool.setLane, List.getElem?_map]
  by_cases here : n = m
  · subst here
    rw [List.getElem?_set_self (List.getElem?_eq_some_iff.mp found).1, found]
    simp only [Option.map_some, if_true]
    have inside := (List.getElem?_eq_some_iff.mp its_lock).1
    simp [Queue.withLane, Queue.lane, inside]
  · rw [List.getElem?_set_ne here]
    cases other : s.queues[m]? with
    | none => rfl
    | some r =>
      have q_member := List.mem_of_getElem? found
      have r_member := List.mem_of_getElem? other
      -- Only this lane changes: the queue of another file has another lock.
      have apart : r.place ≠ q.place := fun same =>
        here (holds.sound.registered.served_unique found other (holds.served q q_member)
          (holds.served r r_member) same.symm)
      have locks_apart : q.lock ≠ r.lock := fun same =>
        apart (holds.sound.registered.place_of_lock r_member
          (same ▸ holds.sound.registered.lock_of q_member))
      simp [apart, List.getElem?_set_ne locks_apart]

theorem Whole.pool_put (holds : s.Whole) (found : s.queues[n]? = some q)
    (its_lock : s.locks[q.lock]? = some lock) (l : Lane) (v : Pool) :
    (s.put n q l v).pool = s.pool.takeOver q.place l v := by
  unfold pool Pool.takeOver
  congr 1
  exact holds.lanes_set found its_lock l

theorem Whole.lock_there (holds : s.Whole) (member : q ∈ s.queues) :
    ∃ lock, s.locks[q.lock]? = some lock := by
  have inside := holds.sound.registered.made _ _ (holds.sound.registered.lock_of member)
  exact ⟨_, List.getElem?_eq_getElem inside⟩

theorem Whole.served? (holds : s.Whole) (found : s.queues[n]? = some q) :
    s.served? q.place = some n := by
  have served := holds.served q (List.mem_of_getElem? found)
  exact served?_eq_some.mpr
    ⟨(holds.sound.registered.queues n q found).2 served, q, found, served⟩

theorem Whole.work? (holds : s.Whole) (found : s.queues[n]? = some q)
    (its_lock : s.locks[q.lock]? = some lock) (f : Queue → Pool → Option Pool) :
    s.work? n f = (f q (s.view q lock)).bind fun v =>
      (v.lane? q.place).map fun l => s.put n q l v := by
  have served := holds.served q (List.mem_of_getElem? found)
  simp only [Service.work?, found, its_lock, served, Option.bind_eq_bind, Option.bind_some, if_true]
  cases f q (s.view q lock) with
  | none => rfl
  | some v => cases at_ : v.lane? q.place <;> simp [at_]

theorem shows_advance (holds : s.Whole) (shows : s.Shows t) (n : Nat) (trouble : Option String) :
    (s.step (.advance n trouble)).Shows
      ((s.ledgerEvents (.advance n trouble)).foldl Ledger.step t) := by
  cases found : s.queues[n]? with
  | none =>
    have stays : s.step (.advance n trouble) = s := by
      simp [step, step?, advance?, work?, found]
    rw [stays, ledgerEvents, found]
    exact shows
  | some q =>
    have member := List.mem_of_getElem? found
    obtain ⟨lock, its_lock⟩ := holds.lock_there member
    have stepped := holds.work? found its_lock fun q p => p.advance q.place trouble
    have advanced : t.pool.advance q.place trouble =
        ((s.view q lock).advance q.place trouble).bind fun v =>
          (v.lane? q.place).map fun l => (s.put n q l v).pool := by
      rw [shows.pool, Pool.advance_alone (holds.lane? member its_lock)]
      simp only [holds.pool_put found its_lock]
      rfl
    rw [step, step?, advance?, stepped, ledgerEvents, found]
    simp only [List.foldl_cons, List.foldl_nil, Ledger.step, advanced]
    cases made : (s.view q lock).advance q.place trouble with
    | none => exact shows
    | some v =>
      cases at_ : v.lane? q.place with
      | none => simpa [at_] using shows
      | some l =>
        simp only [at_, Option.bind_some, Option.map_some, Option.getD_some]
        exact ⟨rfl, shows.connections⟩

theorem Shows.connection (shows : s.Shows t) (n : Nat) :
    t.connections[n]? = (s.handles[n]?).map Handle.connection := by
  rw [shows.connections, List.getElem?_map]

theorem shows_exec (holds : s.Whole) (shows : s.Shows t) (n : Nat) (sql : String)
    (parameters : List Sql.Value) : (s.step (.exec n sql parameters)).Shows
      ((s.ledgerEvents (.exec n sql parameters)).foldl Ledger.step t) := by
  simp only [ledgerEvents, List.foldl_cons, List.foldl_nil, Ledger.step]
  rw [shows.connection]
  cases opened : s.handles[n]? with
  | none =>
    have stays : s.step (.exec n sql parameters) = s := by simp [step, step?, exec?, opened]
    rw [stays]
    exact shows
  | some h =>
    obtain ⟨q, found, place, -⟩ :=
      holds.sound.registered.queue_of (List.mem_of_getElem? opened)
    have member := List.mem_of_getElem? found
    obtain ⟨lock, its_lock⟩ := holds.lock_there member
    have at_place : h.connection.place = q.place := place.symm
    have lane : s.pool.lane? h.connection.place = some (q.lane lock) := by
      rw [at_place]
      exact holds.lane? member its_lock
    have submitted := Pool.submit_alone sql parameters lane
    have view : s.pool.alone h.connection.place (q.lane lock) = s.view q lock := by
      rw [at_place]
      rfl
    rw [view] at submitted
    have stepped : s.step? (.exec n sql parameters) = s.work? h.queue fun _ p =>
        (p.submit h.connection sql parameters).pool? := by simp [step?, exec?, opened]
    rw [step, stepped, holds.work? found its_lock, Option.map_some, shows.pool]
    dsimp only
    cases made : (s.view q lock).submit h.connection sql parameters with
    | accepted ticket v =>
      rw [made] at submitted
      obtain ⟨l, at_, accepted⟩ := submitted
      rw [at_place] at at_ accepted
      rw [accepted]
      simp only [Submission.pool?, at_, Option.bind_some, Option.map_some, Option.getD_some]
      exact ⟨(holds.pool_put found its_lock l v).symm, shows.connections⟩
    | full =>
      rw [made] at submitted
      rw [submitted]
      exact shows
    | refused f =>
      rw [made] at submitted
      rw [submitted]
      exact shows

theorem Whole.lanes_setLock (holds : s.Whole) (member : q ∈ s.queues)
    (its_lock : s.locks[q.lock]? = some lock) (lock' : Lock) :
    (s.queues.map fun r => (r.place, r.lane (((s.locks.set q.lock lock')[r.lock]?).getD .free))) =
      (s.pool.setLane q.place (q.lane lock')).lanes := by
  obtain ⟨n, found⟩ := List.mem_iff_getElem?.mp member
  have same : s.queues.set n (q.withLane (q.lane lock')) = s.queues := by
    obtain ⟨inside, rfl⟩ := List.getElem?_eq_some_iff.mp found
    exact List.set_getElem_self inside
  have lanes := holds.lanes_set found its_lock (q.lane lock')
  rw [same] at lanes
  exact lanes

theorem shows_beginQuery (holds : s.Whole) (shows : s.Shows t) (n : Nat) :
    (s.step (.beginQuery n)).Shows
      ((s.ledgerEvents (.beginQuery n)).foldl Ledger.step t) := by
  simp only [ledgerEvents, List.foldl_cons, List.foldl_nil, Ledger.step]
  rw [shows.connection]
  cases opened : s.handles[n]? with
  | none =>
    have stays : s.step (.beginQuery n) = s := by simp [step, step?, beginQuery?, opened]
    rw [stays]
    exact shows
  | some h =>
    obtain ⟨q, found, place, same⟩ :=
      holds.sound.registered.queue_of (List.mem_of_getElem? opened)
    have member := List.mem_of_getElem? found
    obtain ⟨lock, its_lock⟩ := holds.lock_there member
    have at_place : h.connection.place = q.place := place.symm
    have stepped : s.step? (.beginQuery n) = if h.isOpen then lock.share?.map fun lock' =>
        { s with
          locks := s.locks.set q.lock lock'
          readings := s.readings ++ [⟨h.place, h.lock⟩] } else none := by
      rw [same] at its_lock ⊢
      cases shared : lock.share? <;> simp [step?, beginQuery?, opened, its_lock, shared]
    have begun : s.pool.beginQuery h.connection.place =
        lock.share?.map fun lock' => s.pool.setLane q.place (q.lane lock') := by
      rw [at_place]
      simp only [Pool.beginQuery, holds.lane? member its_lock, Option.bind_eq_bind,
        Option.bind_some]
      show (lock.share?.bind fun lock' => some (s.pool.setLane q.place (q.lane lock'))) = _
      cases lock.share? <;> rfl
    rw [step, stepped, Option.map_some, shows.pool]
    dsimp only
    rw [begun, show h.connection.isOpen = h.isOpen from rfl]
    by_cases is_open : h.isOpen = true
    · simp only [is_open, if_true]
      cases lock.share? with
      | none => exact shows
      | some lock' =>
        refine ⟨?_, shows.connections⟩
        simp only [Option.map_some, Option.getD_some, pool, holds.lanes_setLock member its_lock]
        rfl
    · simp only [is_open]
      exact shows

/-- A query reads a file that has a queue. -/
theorem Whole.reading_queue (holds : s.Whole) {r : Reading} (member : r ∈ s.readings) :
    ∃ q ∈ s.queues, q.place = r.place ∧ q.lock = r.lock := by
  have known := holds.sound.registered.readings r member
  have inside := holds.sound.registered.made _ _ known
  have its_lock := List.getElem?_eq_getElem inside
  have in_use : s.locks[r.lock] ≠ .free := fun free => by
    have readers := holds.sound.exclusive.readers _ _ its_lock
    rw [free] at readers
    exact List.countP_eq_zero.mp readers.symm r member (decide_eq_true rfl)
  obtain ⟨q, q_member, same⟩ := holds.used _ _ its_lock in_use
  rw [← same] at known
  exact ⟨q, q_member, holds.sound.registered.place_of_lock q_member known, same⟩

theorem shows_endQuery (holds : s.Whole) (shows : s.Shows t) (n : Nat) :
    (s.step (.endQuery n)).Shows ((s.ledgerEvents (.endQuery n)).foldl Ledger.step t) := by
  cases found : s.readings[n]? with
  | none =>
    have stays : s.step (.endQuery n) = s := by simp [step, step?, endQuery?, found]
    rw [stays, ledgerEvents, found]
    exact shows
  | some r =>
    obtain ⟨q, member, place, same⟩ := holds.reading_queue (List.mem_of_getElem? found)
    obtain ⟨lock, its_lock⟩ := holds.lock_there member
    have stepped : s.step? (.endQuery n) = some { s with
        locks := s.locks.set q.lock lock.unshare, readings := s.readings.eraseIdx n } := by
      rw [same] at its_lock ⊢
      simp [step?, endQuery?, found, its_lock]
    have ended : s.pool.endQuery r.place =
        some (s.pool.setLane q.place (q.lane lock.unshare)) := by
      rw [← place]
      simp only [Pool.endQuery, holds.lane? member its_lock, Option.bind_eq_bind, Option.bind_some]
      rfl
    rw [step, stepped, ledgerEvents, found]
    simp only [List.foldl_cons, List.foldl_nil, Ledger.step, shows.pool, ended, Option.getD_some]
    refine ⟨?_, shows.connections⟩
    simp only [pool, holds.lanes_setLock member its_lock]
    rfl

theorem shows_close (shows : s.Shows t) (n : Nat) :
    (s.step (.close n)).Shows ((s.ledgerEvents (.close n)).foldl Ledger.step t) := by
  refine ⟨shows.pool, ?_⟩
  show t.connections.modify n Connection.close =
    (s.handles.modify n fun h => { h with isOpen := false }).map Handle.connection
  rw [shows.connections]
  refine List.ext_getElem? fun m => ?_
  simp only [List.getElem?_map, List.getElem?_modify]
  cases s.handles[m]? with
  | none => rfl
  | some h =>
    by_cases same : n = m
    · simp [same, Handle.connection, Connection.close]
    · simp [same]

theorem shows_ask (holds : s.Whole) (shows : s.Shows t) (path : String) :
    (s.step (.ask path)).Shows ((s.ledgerEvents (.ask path)).foldl Ledger.step t) := by
  -- A lock that is made has no queue yet.
  have lanes : (s.queues.map fun q =>
      (q.place, q.lane (((s.locks ++ [.free])[q.lock]?).getD .free))) = s.pool.lanes := by
    refine List.map_congr_left fun q member => ?_
    obtain ⟨lock, its_lock⟩ := holds.lock_there member
    rw [List.getElem?_append_left (List.getElem?_eq_some_iff.mp its_lock).1]
  rw [ledgerEvents, List.foldl_nil]
  cases named : place? path with
  | none =>
    have stays : s.step (.ask path) = s := by simp [step, step?, ask?, named]
    rw [stays]
    exact shows
  | some place =>
    cases made : s.lockOf place with
    | some k =>
      have stepped : s.step (.ask path) =
          { s with callers := s.callers ++ [⟨path, place, k⟩] } := by
        simp [step, step?, ask?, named, made]
      rw [stepped]
      exact ⟨shows.pool, shows.connections⟩
    | none =>
      have stepped : s.step (.ask path) = { s with
          locks := s.locks ++ [.free]
          lockOf := fun other => if other = place then some s.locks.length else s.lockOf other
          callers := s.callers ++ [⟨path, place, s.locks.length⟩] } := by
        simp [step, step?, ask?, named, made]
      rw [stepped]
      refine ⟨?_, shows.connections⟩
      rw [shows.pool]
      simp only [pool, lanes]

/-- The lock of a file without a queue is not in use. -/
theorem Whole.lock_free (holds : s.Whole) {place : Place} {k : Nat}
    (known : s.lockOf place = some k) (elsewhere : ∀ q ∈ s.queues, q.place ≠ place) :
    (s.locks[k]?).getD .free = .free := by
  cases its_lock : s.locks[k]? with
  | none => rfl
  | some lock =>
    by_contra in_use
    obtain ⟨q, member, rfl⟩ := holds.used k lock its_lock in_use
    exact elsewhere q member (holds.sound.registered.place_of_lock member known)

variable {c : Caller}

theorem Whole.connect_served (holds : s.Whole) (asked : c ∈ s.callers) {i : Nat}
    (served : s.served? c.place = some i) :
    s.pool.connect c.path = .ok ({ place := c.place }, s.pool) := by
  obtain ⟨q, found, place⟩ :=
    holds.sound.registered.table c.place i (served?_eq_some.mp served).1
  obtain ⟨lock, its_lock⟩ := holds.lock_there (List.mem_of_getElem? found)
  have lane := holds.lane? (List.mem_of_getElem? found) its_lock
  rw [place] at lane
  simp [Pool.connect, (holds.sound.registered.callers c asked).1, lane]

theorem Whole.connect_unserved (holds : s.Whole) (asked : c ∈ s.callers)
    (unserved : s.served? c.place = none) : s.pool.connect c.path = .ok ({ place := c.place },
      { s with queues := s.queues ++ [{ place := c.place, lock := c.lock }] : Service }.pool) := by
  obtain ⟨named, known⟩ := holds.sound.registered.callers c asked
  have elsewhere (q : Queue) (member : q ∈ s.queues) : q.place ≠ c.place := fun here => by
    obtain ⟨m, found⟩ := List.mem_iff_getElem?.mp member
    rw [← here, holds.served? found] at unserved
    cases unserved
  have missing : s.pool.lane? c.place = none := Pool.lookup_map_eq_none elsewhere
  have free := holds.lock_free known elsewhere
  have lanes : (s.queues ++ [({ place := c.place, lock := c.lock } : Queue)]).map (fun q =>
      (q.place, q.lane ((s.locks[q.lock]?).getD .free))) =
        s.pool.lanes ++ [(c.place, ({} : Lane))] := by
    rw [List.map_append, List.map_singleton, free]
    rfl
  simp only [Pool.connect, named, missing]
  simp only [pool, lanes]

theorem shows_join (holds : s.Whole) (shows : s.Shows t) (n : Nat) (starts : Bool) :
    (s.step (.join n starts)).Shows
      ((s.ledgerEvents (.join n starts)).foldl Ledger.step t) := by
  cases found : s.callers[n]? with
  | none =>
    have stays : s.step (.join n starts) = s := by simp [step, step?, join?, found]
    rw [stays, ledgerEvents, found]
    exact shows
  | some c =>
    have asked := List.mem_of_getElem? found
    rw [ledgerEvents, found]
    dsimp only
    cases served : s.served? c.place with
    | some i =>
      have stepped : s.step (.join n starts) = { s with
          callers := s.callers.eraseIdx n
          handles := s.handles ++ [⟨c.path, c.place, c.lock, i, true⟩] } := by
        simp [step, step?, join?, found, served]
      rw [stepped]
      simp only [Option.isSome_some, Bool.true_or, if_true, List.foldl_cons, List.foldl_nil,
        Ledger.step, shows.pool, holds.connect_served asked served]
      exact ⟨rfl, by simp [shows.connections, Handle.connection]⟩
    | none =>
      cases starts with
      | false =>
        have stepped : s.step (.join n false) = { s with callers := s.callers.eraseIdx n } := by
          simp [step, step?, join?, found, served]
        rw [stepped]
        exact ⟨shows.pool, shows.connections⟩
      | true =>
        have stepped : s.step (.join n true) = { s with
            callers := s.callers.eraseIdx n
            queues := s.queues ++ [{ place := c.place, lock := c.lock }]
            queueOf := fun other =>
              if other = c.place then some s.queues.length else s.queueOf other
            handles := s.handles ++ [⟨c.path, c.place, c.lock, s.queues.length, true⟩] } := by
          simp [step, step?, join?, found, served]
        rw [stepped]
        simp only [Bool.or_true, if_true, List.foldl_cons, List.foldl_nil, Ledger.step, shows.pool,
          holds.connect_unserved asked served]
        exact ⟨rfl, by simp [shows.connections, Handle.connection]⟩

theorem shows_step (holds : s.Whole) (shows : s.Shows t) {e : Event} (goes_on : ∀ n, e ≠ .stop n) :
    (s.step e).Shows ((s.ledgerEvents e).foldl Ledger.step t) := by
  cases e with
  | ask path => exact shows_ask holds shows path
  | join n starts => exact shows_join holds shows n starts
  | exec n sql parameters => exact shows_exec holds shows n sql parameters
  | close n => exact shows_close shows n
  | advance n trouble => exact shows_advance holds shows n trouble
  | stop n => exact absurd rfl (goes_on n)
  | beginQuery n => exact shows_beginQuery holds shows n
  | endQuery n => exact shows_endQuery holds shows n

theorem LocksUsed.set (used : s.LocksUsed) (found : s.queues[n]? = some q) {q' : Queue}
    (same : q'.lock = q.lock) (lock : Lock) (files : Files) (replies : Array Reply) :
    LocksUsed { s with
      files, replies, locks := s.locks.set q.lock lock, queues := s.queues.set n q' } := by
  have inside := (List.getElem?_eq_some_iff.mp found).1
  have there : q' ∈ s.queues.set n q' := List.mem_set inside q'
  intro k other at_k in_use
  rcases getElem?_set_cases at_k with ⟨rfl, -⟩ | ⟨apart, old⟩
  · exact ⟨q', there, same⟩
  · obtain ⟨r, member, its_lock⟩ := used k other old in_use
    obtain ⟨m, at_m⟩ := List.mem_iff_getElem?.mp member
    have elsewhere : n ≠ m := by
      rintro rfl
      rw [found] at at_m
      cases at_m
      exact apart its_lock
    refine ⟨r, List.mem_of_getElem? (i := m) ?_, its_lock⟩
    rw [List.getElem?_set_ne elsewhere, at_m]

theorem used_moves {s' : Service} {e : Event} (moves : Moves s e s') (sound : s.Sound)
    (used : s.LocksUsed) : s'.LocksUsed := by
  cases moves with
  | makes named missing =>
    intro k lock at_k in_use
    dsimp only at at_k
    rw [List.getElem?_append] at at_k
    split at at_k
    · exact used k lock at_k in_use
    · rw [List.getElem?_singleton] at at_k
      split at at_k
      · exact absurd (Option.some.inj at_k).symm in_use
      · cases at_k
  | starts asked unserved =>
    intro k lock at_k in_use
    obtain ⟨q, member, same⟩ := used k lock at_k in_use
    exact ⟨q, List.mem_append_left _ member, same⟩
  | works found its_lock served turns => exact used.set found (by rfl) _ _ _
  | stops found its_lock turns => exact used.set found (by rfl) _ _ _
  | @reads n i h opened shared =>
    intro k lock at_k in_use
    rcases getElem?_set_cases at_k with ⟨rfl, -⟩ | ⟨-, old⟩
    · obtain ⟨q, found, -, same⟩ := sound.registered.queue_of (List.mem_of_getElem? opened)
      exact ⟨q, List.mem_of_getElem? found, same⟩
    · exact used k lock old in_use
  | @ends n r before found its_lock =>
    intro k lock at_k in_use
    rcases getElem?_set_cases at_k with ⟨rfl, rfl⟩ | ⟨-, old⟩
    · exact used _ before its_lock fun free => in_use (by rw [free]; rfl)
    · exact used k lock old in_use
  | _ => exact used

theorem whole_step (holds : s.Whole) {e : Event} (goes_on : ∀ n, e ≠ .stop n) :
    (s.step e).Whole := by
  rcases step_cases s e with same | moves
  · rwa [same]
  · exact ⟨⟨registered_moves moves holds.sound.registered,
      exclusive_moves moves holds.sound.registered holds.sound.exclusive⟩,
      served_moves moves goes_on holds.served, used_moves moves holds.sound holds.used⟩

theorem shows_run (holds : s.Whole) (shows : s.Shows t) {events : List Event}
    (goes_on : ∀ e ∈ events, ∀ n, e ≠ .stop n) :
    (events.foldl step s).Shows ((history s events).foldl Ledger.step t) := by
  -- The events of the rest are those of the state that the first one leads to.
  induction events generalizing s t with
  | nil => exact shows
  | cons e rest ih =>
    rw [history, List.foldl_append, List.foldl_cons]
    have first := goes_on e List.mem_cons_self
    exact ih (whole_step holds first) (shows_step holds shows first) fun e member =>
      goes_on e (List.mem_cons_of_mem _ member)

/-- What threads do to a pool whose writers do not go away is what a ledger keeps account of. -/
theorem pool_run (files : Files) {events : List Event}
    (goes_on : ∀ e ∈ events, ∀ n, e ≠ .stop n) : (run files events).pool =
      ((history { files } events).foldl Ledger.step { pool := { files } }).pool := by
  have whole : ({ files } : Service).Whole := ⟨sound_run files [], by simp, by simp [LocksUsed]⟩
  exact (shows_run whole ⟨rfl, rfl⟩ goes_on).pool.symm

end Service

end ScriptGate.Storage
