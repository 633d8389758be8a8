import Mathlib.Data.List.Perm.Basic
import ScriptGate.Proofs.Storage.Place
import ScriptGate.Proofs.Storage.Service

/-!
# One lock and one writer for a file

However threads connect, write and query at the same time, the paths of one file lead to one lock
and one queue, and those of two files to two of each. A file has one writer at most that is there,
and what it does to the file and what queries read of it exclude each other.
-/

namespace ScriptGate.Storage

/-- A queue of the same file, which is not served if the other one is not. -/
structure Queue.Follows (r q : Queue) : Prop where
  place : r.place = q.place
  lock : r.lock = q.lock
  served : r.isServed = true → q.isServed = true

namespace Service

variable {s t : Service} {e : Event}

/-! ### The tables -/

/-- Whoever has a lock has the one of its file, no other file has it, and a queue that is served is
the one that the table has for its file. -/
structure Registered (s : Service) : Prop where
  made : ∀ place k, s.lockOf place = some k → k < s.locks.length
  apart : ∀ place other k, s.lockOf place = some k → s.lockOf other = some k → place = other
  table : ∀ place i, s.queueOf place = some i → ∃ q, s.queues[i]? = some q ∧ q.place = place
  callers : ∀ c ∈ s.callers, place? c.path = some c.place ∧ s.lockOf c.place = some c.lock
  handles : ∀ h ∈ s.handles, place? h.path = some h.place ∧ s.lockOf h.place = some h.lock ∧
    ∃ q, s.queues[h.queue]? = some q ∧ q.place = h.place
  queues : ∀ (n : Nat) (q : Queue), s.queues[n]? = some q → s.lockOf q.place = some q.lock ∧
    (q.isServed = true → s.queueOf q.place = some n)
  readings : ∀ r ∈ s.readings, s.lockOf r.place = some r.lock

namespace Registered

variable {q r : Queue} {place : Place} {m n : Nat}

theorem lock_of (holds : s.Registered) (member : q ∈ s.queues) :
    s.lockOf q.place = some q.lock := by
  obtain ⟨n, found⟩ := List.mem_iff_getElem?.mp member
  exact (holds.queues n q found).1

theorem place_of_lock (holds : s.Registered) (member : q ∈ s.queues)
    (known : s.lockOf place = some q.lock) : q.place = place :=
  holds.apart _ _ _ (holds.lock_of member) known

theorem queue_of (holds : s.Registered) {h : Handle} (member : h ∈ s.handles) :
    ∃ q, s.queues[h.queue]? = some q ∧ q.place = h.place ∧ q.lock = h.lock := by
  obtain ⟨-, known, q, found, place⟩ := holds.handles h member
  have lock := holds.lock_of (List.mem_of_getElem? found)
  rw [place, known] at lock
  exact ⟨q, found, place, (Option.some.inj lock).symm⟩

theorem served_unique (holds : s.Registered) (first : s.queues[m]? = some q)
    (second : s.queues[n]? = some r) (served : q.isServed = true) (served' : r.isServed = true)
    (same : q.place = r.place) : m = n := by
  have known := (holds.queues m q first).2 served
  rw [same, (holds.queues n r second).2 served'] at known
  exact (Option.some.inj known).symm

end Registered

theorem getElem?_set_cases {α : Type} {xs : List α} {k i : Nat} {x y : α}
    (found : (xs.set k x)[i]? = some y) : k = i ∧ y = x ∨ k ≠ i ∧ xs[i]? = some y := by
  rw [List.getElem?_set] at found
  split at found
  · rename_i same
    split at found
    · cases found
      exact .inl ⟨same, rfl⟩
    · cases found
  · rename_i apart
    exact .inr ⟨apart, found⟩

theorem Registered.set (holds : s.Registered) {n k : Nat} {q q' : Queue} {lock : Lock}
    {files : Files} {replies : Array Reply} (found : s.queues[n]? = some q)
    (follows : q'.Follows q) :
    Registered { s with
      files, replies, locks := s.locks.set k lock, queues := s.queues.set n q' } := by
  have before (m : Nat) (r : Queue) (at_m : (s.queues.set n q')[m]? = some r) :
      ∃ q, s.queues[m]? = some q ∧ r.Follows q := by
    rcases getElem?_set_cases at_m with ⟨rfl, rfl⟩ | ⟨-, old⟩
    · exact ⟨q, found, follows⟩
    · exact ⟨r, old, rfl, rfl, id⟩
  have there {m : Nat} {place : Place} (old : ∃ q, s.queues[m]? = some q ∧ q.place = place) :
      ∃ q, (s.queues.set n q')[m]? = some q ∧ q.place = place := by
    obtain ⟨r, at_m, rfl⟩ := old
    have inside : m < (s.queues.set n q').length := by
      rw [List.length_set]
      exact (List.getElem?_eq_some_iff.mp at_m).1
    obtain ⟨r', at_m', same⟩ := before m _ (List.getElem?_eq_getElem inside)
    rw [at_m] at at_m'
    cases at_m'
    exact ⟨_, List.getElem?_eq_getElem inside, same.place⟩
  refine ⟨fun place k made => ?_, holds.apart,
    fun place i known => there (holds.table place i known), holds.callers, fun h member => ?_,
    fun m r at_m => ?_, holds.readings⟩
  · rw [List.length_set]
    exact holds.made place k made
  · obtain ⟨named, its_lock, old⟩ := holds.handles h member
    exact ⟨named, its_lock, there old⟩
  · obtain ⟨q, old, same⟩ := before m r at_m
    obtain ⟨its_lock, served⟩ := holds.queues m q old
    dsimp only
    rw [same.place, same.lock]
    exact ⟨its_lock, fun is_served => served (same.served is_served)⟩

theorem served?_eq_some {place : Place} {i : Nat} : s.served? place = some i ↔
    s.queueOf place = some i ∧ ∃ q, s.queues[i]? = some q ∧ q.isServed = true := by
  simp [served?, Option.filter_eq_some_iff, Option.any_eq_true]

theorem Registered.makes (holds : s.Registered) {path : String} {place : Place}
    (named : place? path = some place) (missing : s.lockOf place = none) :
    Registered { s with
      locks := s.locks ++ [.free]
      lockOf := fun other => if other = place then some s.locks.length else s.lockOf other
      callers := s.callers ++ [⟨path, place, s.locks.length⟩] } := by
  have kept (other : Place) (k : Nat) (found : s.lockOf other = some k) :
      (if other = place then some s.locks.length else s.lockOf other) = some k := by
    rw [if_neg]
    · exact found
    · rintro rfl
      rw [missing] at found
      cases found
  have cases_of (other : Place) (k : Nat)
      (found : (if other = place then some s.locks.length else s.lockOf other) = some k) :
      other = place ∧ k = s.locks.length ∨ s.lockOf other = some k ∧ k < s.locks.length := by
    split at found
    · rename_i here
      exact .inl ⟨here, (Option.some.inj found).symm⟩
    · exact .inr ⟨found, holds.made other k found⟩
  refine ⟨fun other k found => ?_, fun other another k found found' => ?_, holds.table,
    fun c member => ?_, fun h member => ?_, fun n q found => ?_, fun r member => ?_⟩
  · rw [List.length_append]
    rcases cases_of other k found with ⟨-, rfl⟩ | ⟨-, below⟩
    · exact Nat.lt_succ_self _
    · exact Nat.lt_succ_of_lt below
  · rcases cases_of other k found with ⟨rfl, rfl⟩ | ⟨old, below⟩
    · rcases cases_of another _ found' with ⟨rfl, -⟩ | ⟨-, below⟩
      · rfl
      · exact absurd below (Nat.lt_irrefl _)
    · rcases cases_of another k found' with ⟨-, rfl⟩ | ⟨old', -⟩
      · exact absurd below (Nat.lt_irrefl _)
      · exact holds.apart other another k old old'
  · rcases List.mem_append.mp member with old | new
    · obtain ⟨path, lock⟩ := holds.callers c old
      exact ⟨path, kept _ _ lock⟩
    · rw [List.mem_singleton.mp new]
      exact ⟨named, if_pos rfl⟩
  · obtain ⟨path, lock, there⟩ := holds.handles h member
    exact ⟨path, kept _ _ lock, there⟩
  · obtain ⟨lock, served⟩ := holds.queues n q found
    exact ⟨kept _ _ lock, served⟩
  · exact kept _ _ (holds.readings r member)

theorem Registered.starts (holds : s.Registered) {n : Nat} {c : Caller}
    (asked : s.callers[n]? = some c) (unserved : s.served? c.place = none) :
    Registered { s with
      callers := s.callers.eraseIdx n
      queues := s.queues ++ [{ place := c.place, lock := c.lock }]
      queueOf := fun other => if other = c.place then some s.queues.length else s.queueOf other
      handles := s.handles ++ [⟨c.path, c.place, c.lock, s.queues.length, true⟩] } := by
  obtain ⟨named, its_lock⟩ := holds.callers c (List.mem_of_getElem? asked)
  have old_there {i : Nat} {place : Place} (there : ∃ q, s.queues[i]? = some q ∧ q.place = place) :
      ∃ q, (s.queues ++ [({ place := c.place, lock := c.lock } : Queue)])[i]? = some q ∧
        q.place = place := by
    obtain ⟨q, found, at_place⟩ := there
    refine ⟨q, ?_, at_place⟩
    rw [List.getElem?_append_left (List.getElem?_eq_some_iff.mp found).1, found]
  have new_there : ∃ q, (s.queues ++ [({ place := c.place, lock := c.lock } : Queue)])[
      s.queues.length]? = some q ∧ q.place = c.place := ⟨_, List.getElem?_concat_length, rfl⟩
  refine ⟨holds.made, holds.apart, fun other i found => ?_, fun d member => ?_,
    fun h member => ?_, fun m q found => ?_, holds.readings⟩
  · dsimp only at found
    split at found
    · rename_i here
      cases found
      rw [here]
      exact new_there
    · exact old_there (holds.table other i found)
  · exact holds.callers d (List.mem_of_mem_eraseIdx member)
  · rcases List.mem_append.mp member with old | new
    · obtain ⟨path, lock, there⟩ := holds.handles h old
      exact ⟨path, lock, old_there there⟩
    · rw [List.mem_singleton.mp new]
      exact ⟨named, its_lock, new_there⟩
  · dsimp only at found ⊢
    rw [List.getElem?_append] at found
    split at found
    · obtain ⟨lock, served⟩ := holds.queues m q found
      refine ⟨lock, fun is_served => ?_⟩
      -- A queue of the same file that is served would have been found.
      rw [if_neg]
      · exact served is_served
      · intro here
        rw [← here, ← Option.not_isSome_iff_eq_none, Option.isSome_iff_exists] at unserved
        exact unserved ⟨m, served?_eq_some.mpr ⟨served is_served, q, found, is_served⟩⟩
    · rename_i behind
      rw [List.getElem?_singleton] at found
      split at found
      · cases found
        refine ⟨its_lock, fun _ => ?_⟩
        rw [if_pos rfl]
        congr 1
        omega
      · cases found

theorem registered_moves (moves : Moves s e t) (holds : s.Registered) : t.Registered := by
  cases moves with
  | @knows path place k named made =>
    exact { holds with
      callers := fun c member => by
        rcases List.mem_append.mp member with old | new
        · exact holds.callers c old
        · rw [List.mem_singleton.mp new]
          exact ⟨named, made⟩ }
  | makes named missing => exact holds.makes named missing
  | @joins n i starts c asked served =>
    exact { holds with
      callers := fun d member => holds.callers d (List.mem_of_mem_eraseIdx member)
      handles := fun h member => by
        rcases List.mem_append.mp member with old | new
        · exact holds.handles h old
        · rw [List.mem_singleton.mp new]
          obtain ⟨named, its_lock⟩ := holds.callers c (List.mem_of_getElem? asked)
          exact ⟨named, its_lock, holds.table c.place i (served?_eq_some.mp served).1⟩ }
  | starts asked unserved => exact holds.starts asked unserved
  | fails =>
    exact { holds with
      callers := fun c member => holds.callers c (List.mem_of_mem_eraseIdx member) }
  | close n =>
    exact { holds with
      handles := fun h member => by
        obtain ⟨i, inside, rfl⟩ := List.mem_iff_getElem.mp member
        unfold close at inside ⊢
        simp only [List.length_modify, List.getElem_modify] at inside ⊢
        have old := holds.handles _ (List.getElem_mem (l := s.handles) inside)
        split
        · exact old
        · exact old }
  | works found its_lock served turns => exact holds.set found ⟨rfl, rfl, id⟩
  | stops found its_lock turns =>
    exact holds.set found ⟨rfl, rfl, fun other => by cases other⟩
  | @reads n k h found shared =>
    exact { holds with
      made := fun place k found => by
        rw [List.length_set]
        exact holds.made place k found
      readings := fun r member => by
        rcases List.mem_append.mp member with old | new
        · exact holds.readings r old
        · rw [List.mem_singleton.mp new]
          exact (holds.handles h (List.mem_of_getElem? found)).2.1 }
  | ends found its_lock =>
    exact { holds with
      made := fun place k found => by
        rw [List.length_set]
        exact holds.made place k found
      readings := fun r member => holds.readings r (List.mem_of_mem_eraseIdx member) }

/-! ### The locks -/

/-- A writer that holds its lock is there and has it alone, and a lock counts the queries that have
a share of it. -/
structure Exclusive (s : Service) : Prop where
  holds : ∀ (n : Nat) (q : Queue) (w : Write), s.queues[n]? = some q → q.writer = .locked w →
    q.isServed = true ∧ s.locks[q.lock]? = some .exclusive
  readers : ∀ (k : Nat) (lock : Lock), s.locks[k]? = some lock →
    lock.readers = s.readings.countP (·.lock = k)

theorem holder_unique (registered : s.Registered) (exclusive : s.Exclusive) {m n : Nat}
    {q r : Queue} {v w : Write} (first : s.queues[m]? = some q) (second : s.queues[n]? = some r)
    (locked : q.writer = .locked v) (locked' : r.writer = .locked w) (same : q.lock = r.lock) :
    m = n := by
  have place : q.place = r.place := registered.place_of_lock (List.mem_of_getElem? first)
    (same ▸ registered.lock_of (List.mem_of_getElem? second))
  exact registered.served_unique first second (exclusive.holds m q v first locked).1
    (exclusive.holds n r w second locked').1 place

/-- A writer takes its lock when it is free, and gives back what it has alone. -/
theorem Exclusive.turns (holds : s.Exclusive) (registered : s.Registered) {n : Nat} {q q' : Queue}
    {lock lock' : Lock} {files : Files} {replies : Array Reply} (found : s.queues[n]? = some q)
    (its_lock : s.locks[q.lock]? = some lock) (turns : Turns lock q.writer lock' q'.writer)
    (follows : q'.Follows q) (served : ∀ w, q'.writer = .locked w → q'.isServed = true) :
    Exclusive { s with
      files, replies, locks := s.locks.set q.lock lock', queues := s.queues.set n q' } := by
  have inside := (List.getElem?_eq_some_iff.mp its_lock).1
  refine ⟨fun m r w at_m locked => ?_, fun k other at_k => ?_⟩
  -- A writer that holds its lock is the one that turns, or another one, whose lock is another one.
  · rcases getElem?_set_cases at_m with ⟨rfl, rfl⟩ | ⟨apart, old⟩
    · refine ⟨served w locked, ?_⟩
      dsimp only
      rw [follows.lock, List.getElem?_set_self inside]
      cases turns with
      | keeps same before =>
        obtain ⟨-, held⟩ := holds.holds n q w found (before w locked)
        rw [same, ← its_lock, held]
      | locks free held => rw [held]
      | frees before free done => exact absurd locked (done w)
    · obtain ⟨is_served, held⟩ := holds.holds m r w old locked
      refine ⟨is_served, ?_⟩
      dsimp only
      by_cases same : q.lock = r.lock
      · rw [← same] at held ⊢
        rw [List.getElem?_set_self inside]
        rw [its_lock] at held
        cases held
        cases turns with
        | keeps same before => rw [same]
        | locks free held => cases free
        | frees before free done =>
          exact absurd (holder_unique registered holds found old before locked same) apart
      · rw [List.getElem?_set_ne same, held]
  · rcases getElem?_set_cases at_k with ⟨rfl, rfl⟩ | ⟨apart, old⟩
    · have before := holds.readers _ lock its_lock
      cases turns with
      | keeps same _ => rw [same, before]
      | locks free held =>
        rw [← before, free, held]
        rfl
      | frees locked free done =>
        rw [(holds.holds n q _ found locked).2] at its_lock
        cases its_lock
        rw [← before, free]
        rfl
    · exact holds.readers k other old

theorem Exclusive.shared (holds : s.Exclusive) {n i k : Nat} {q : Queue} {w : Write}
    (found : s.queues[n]? = some q) (locked : q.writer = .locked w)
    (shared : s.locks[k]? = some (.shared i)) : k ≠ q.lock := by
  rintro rfl
  rw [(holds.holds n q w found locked).2] at shared
  cases shared

theorem Exclusive.makes (holds : s.Exclusive) (registered : s.Registered) (callers : List Caller)
    (lockOf : Place → Option Nat) :
    Exclusive { s with callers, lockOf, locks := s.locks ++ [.free] } := by
  refine ⟨fun n q w found locked => ?_, fun k lock at_k => ?_⟩
  · obtain ⟨served, held⟩ := holds.holds n q w found locked
    refine ⟨served, ?_⟩
    dsimp only
    rw [List.getElem?_append_left (List.getElem?_eq_some_iff.mp held).1, held]
  · dsimp only at at_k
    rw [List.getElem?_append] at at_k
    split at at_k
    · exact holds.readers k lock at_k
    · rename_i behind
      rw [List.getElem?_singleton] at at_k
      split at at_k
      · cases at_k
        -- The lock is new, so that no query can have it.
        refine (List.countP_eq_zero.mpr fun r member => ?_).symm
        have below := registered.made r.place r.lock (registered.readings r member)
        simp only [decide_eq_true_eq]
        omega
      · cases at_k

theorem Exclusive.starts (holds : s.Exclusive) (place : Place) (lock : Nat) (callers : List Caller)
    (queueOf : Place → Option Nat) (handles : List Handle) :
    Exclusive { s with callers, queueOf, handles, queues := s.queues ++ [{ place, lock }] } := by
  refine ⟨fun n q w found locked => ?_, holds.readers⟩
  dsimp only at found
  rw [List.getElem?_append] at found
  split at found
  · exact holds.holds n q w found locked
  · rw [List.getElem?_singleton] at found
    split at found
    · cases found
      cases locked
    · cases found

theorem Exclusive.reads (holds : s.Exclusive) {k i : Nat} (place : Place)
    (shared : s.locks[k]? = some (.shared i)) :
    Exclusive { s with
      locks := s.locks.set k (.shared (i + 1)), readings := s.readings ++ [⟨place, k⟩] } := by
  refine ⟨fun n q w found locked => ?_, fun j lock at_j => ?_⟩
  · obtain ⟨served, held⟩ := holds.holds n q w found locked
    refine ⟨served, ?_⟩
    dsimp only
    rw [List.getElem?_set_ne (holds.shared found locked shared), held]
  · dsimp only
    rw [List.countP_append]
    rcases getElem?_set_cases at_j with ⟨rfl, rfl⟩ | ⟨apart, old⟩
    · rw [← holds.readers _ _ shared]
      simp [Lock.readers]
    · rw [← holds.readers _ _ old]
      simp [apart]

theorem Exclusive.ends (holds : s.Exclusive) {n : Nat} {r : Reading} {lock : Lock}
    (found : s.readings[n]? = some r) (its_lock : s.locks[r.lock]? = some lock) :
    Exclusive { s with
      locks := s.locks.set r.lock lock.unshare, readings := s.readings.eraseIdx n } := by
  obtain ⟨inside, at_n⟩ := List.getElem?_eq_some_iff.mp found
  have count (k : Nat) : s.readings.countP (·.lock = k) =
      (s.readings.eraseIdx n).countP (·.lock = k) + if r.lock = k then 1 else 0 := by
    rw [← (List.getElem_cons_eraseIdx_perm inside).countP_eq, List.countP_cons, at_n]
    simp
  have readers := holds.readers _ _ its_lock
  rw [count, if_pos rfl] at readers
  cases lock with
  | exclusive => cases readers
  | shared i =>
    refine ⟨fun m q w at_m locked => ?_, fun j lock at_j => ?_⟩
    · obtain ⟨served, held⟩ := holds.holds m q w at_m locked
      refine ⟨served, ?_⟩
      dsimp only
      rw [List.getElem?_set_ne (holds.shared at_m locked its_lock), held]
    · dsimp only
      rcases getElem?_set_cases at_j with ⟨rfl, rfl⟩ | ⟨apart, old⟩
      · simp only [Lock.readers, Lock.unshare] at readers ⊢
        omega
      · have before := holds.readers _ _ old
        rw [count, if_neg apart] at before
        exact before

theorem exclusive_moves (moves : Moves s e t) (registered : s.Registered) (holds : s.Exclusive) :
    t.Exclusive := by
  cases moves with
  | knows named made => exact ⟨holds.holds, holds.readers⟩
  | makes named missing => exact holds.makes registered _ _
  | joins asked served => exact ⟨holds.holds, holds.readers⟩
  | starts asked unserved => exact holds.starts _ _ _ _ _
  | fails => exact ⟨holds.holds, holds.readers⟩
  | close n => exact ⟨holds.holds, holds.readers⟩
  | works found its_lock served turns =>
    exact holds.turns registered found its_lock turns ⟨rfl, rfl, id⟩ fun _ _ => served
  | stops found its_lock turns =>
    exact holds.turns registered found its_lock turns ⟨rfl, rfl, fun other => by cases other⟩
      fun _ locked => by cases locked
  | reads found shared => exact holds.reads _ shared
  | ends found its_lock => exact holds.ends found its_lock

/-! ### What connections share -/

variable {files : Files} {events : List Event}

/-- The tables and the locks of a run are sound. -/
structure Sound (s : Service) : Prop where
  registered : s.Registered
  exclusive : s.Exclusive

theorem sound_run (files : Files) (events : List Event) : (run files events).Sound := by
  have start : ({ files } : Service).Sound :=
    ⟨⟨by simp, by simp, by simp, by simp, by simp, by simp, by simp⟩, ⟨by simp, by simp⟩⟩
  refine run_keeps (A := fun _ => True) (fun s e t _ moves holds => ?_) (by simp) start
  exact ⟨registered_moves moves holds.registered,
    exclusive_moves moves holds.registered holds.exclusive⟩

def IsServed (s : Service) (n : Nat) : Prop := ∃ q, s.queues[n]? = some q ∧ q.isServed = true

/-- The writer of a queue is at applying a statement to a file. -/
def Applies (s : Service) (n : Nat) (place : Place) : Prop :=
  ∃ q w, s.queues[n]? = some q ∧ q.place = place ∧ q.writer = .locked w

theorem served_moves (moves : Moves s e t) (goes_on : ∀ n, e ≠ .stop n)
    (holds : ∀ q ∈ s.queues, q.isServed = true) : ∀ q ∈ t.queues, q.isServed = true := by
  intro r member
  cases moves with
  | starts asked unserved =>
    rcases List.mem_append.mp member with old | new
    · exact holds r old
    · rw [List.mem_singleton.mp new]
  | works found its_lock served turns =>
    rcases List.mem_or_eq_of_mem_set member with old | rfl
    · exact holds r old
    · exact served
  | stops => exact absurd rfl (goes_on _)
  | _ => exact holds r member

theorem Sound.unread (holds : s.Sound) {n : Nat} {place : Place} (applies : s.Applies n place) :
    ∀ r ∈ s.readings, r.place ≠ place := by
  rintro r member rfl
  obtain ⟨q, w, found, at_place, locked⟩ := applies
  have none_reads := holds.exclusive.readers _ _ (holds.exclusive.holds n q w found locked).2
  have its_lock := holds.registered.readings r member
  rw [← at_place, holds.registered.lock_of (List.mem_of_getElem? found)] at its_lock
  exact List.countP_eq_zero.mp none_reads.symm r member
    (decide_eq_true (Option.some.inj its_lock).symm)

/-- Connections share their lock if and only if their paths have the same names, and then they share
the queue that is served, too: as long as no writer goes away, all of them are. A file never has two
writers. While one applies a statement, nothing else does so and no query reads the file. -/
theorem one_lock_one_writer (files : Files) (events : List Event) :
    let s := run files events
    (∀ c ∈ s.handles, ∀ d ∈ s.handles,
      (names c.path = names d.path → c.lock = d.lock ∧
        (s.IsServed c.queue → s.IsServed d.queue → c.queue = d.queue)) ∧
      (names c.path ≠ names d.path → c.lock ≠ d.lock ∧ c.queue ≠ d.queue)) ∧
    (∀ c ∈ s.handles, ∃ q, s.queues[c.queue]? = some q ∧ q.place = names c.path ∧
      q.lock = c.lock) ∧
    ((∀ e ∈ events, ∀ n, e ≠ .stop n) → ∀ c ∈ s.handles, s.IsServed c.queue) ∧
    (∀ (m n : Nat) (q r : Queue), s.queues[m]? = some q → s.queues[n]? = some r →
      q.isServed = true → r.isServed = true → q.place = r.place → m = n) ∧
    ∀ n place, s.Applies n place → (∀ r ∈ s.readings, r.place ≠ place) ∧
      ∀ m, s.Applies m place → m = n := by
  intro s
  have holds : s.Sound := sound_run files events
  have at_names (c : Handle) (member : c ∈ s.handles) : ∃ q, s.queues[c.queue]? = some q ∧
      q.place = names c.path ∧ q.lock = c.lock ∧ s.lockOf (names c.path) = some c.lock := by
    obtain ⟨named, known, -⟩ := holds.registered.handles c member
    obtain ⟨q, found, place, lock⟩ := holds.registered.queue_of member
    rw [names_of_place? named] at known place
    exact ⟨q, found, place, lock, known⟩
  refine ⟨fun c first d second => ⟨fun same => ⟨?_, ?_⟩, fun differ => ⟨?_, ?_⟩⟩,
    fun c member => ?_, fun goes_on c member => ?_, fun m n q r => holds.registered.served_unique,
    fun n place applies => ⟨holds.unread applies, fun m applies' => ?_⟩⟩
  · obtain ⟨-, -, -, -, lock⟩ := at_names c first
    obtain ⟨-, -, -, -, lock'⟩ := at_names d second
    rw [same, lock'] at lock
    exact (Option.some.inj lock).symm
  · rintro ⟨q, found, served⟩ ⟨r, found', served'⟩
    obtain ⟨q', at_c, place, -⟩ := at_names c first
    obtain ⟨r', at_d, place', -⟩ := at_names d second
    rw [found] at at_c
    rw [found'] at at_d
    cases at_c
    cases at_d
    exact holds.registered.served_unique found found' served served' (by rw [place, place', same])
  · intro same
    obtain ⟨-, -, -, -, lock⟩ := at_names c first
    obtain ⟨-, -, -, -, lock'⟩ := at_names d second
    rw [same] at lock
    exact differ (holds.registered.apart _ _ _ lock lock')
  · intro same
    obtain ⟨q, at_c, place, -⟩ := at_names c first
    obtain ⟨r, at_d, place', -⟩ := at_names d second
    rw [same, at_d] at at_c
    cases at_c
    exact differ (place.symm.trans place')
  · obtain ⟨q, found, place, lock, -⟩ := at_names c member
    exact ⟨q, found, place, lock⟩
  · obtain ⟨q, found, -⟩ := at_names c member
    have all : ∀ q ∈ s.queues, q.isServed = true :=
      run_keeps (P := fun s => ∀ q ∈ s.queues, q.isServed = true)
        (fun s e t goes_on moves => served_moves moves goes_on) goes_on (by simp)
    exact ⟨q, found, all q (List.mem_of_getElem? found)⟩
  · obtain ⟨q, w, found, rfl, locked⟩ := applies
    obtain ⟨r, v, found', same, locked'⟩ := applies'
    exact holds.registered.served_unique found' found (holds.exclusive.holds m r v found' locked').1
      (holds.exclusive.holds n q w found locked).1 same

/-- Three threads connect at the same time, two of them to one file. While its writer applies a
statement, a query reads the other file, and one of this file has to wait. -/
theorem one_lock_one_writer_of_three_threads :
    let s := run {} [.ask "a.db", .ask "./a.db", .ask "b.db", .join 1 true, .join 0 true,
      .join 0 true, .exec 0 "CREATE TABLE t (n)" [], .advance 0 none, .advance 0 none,
      .beginQuery 1, .beginQuery 2]
    s.handles = [⟨"./a.db", ["a.db"], 0, 0, true⟩, ⟨"a.db", ["a.db"], 0, 0, true⟩,
      ⟨"b.db", ["b.db"], 1, 1, true⟩] ∧
    s.readings.length = 1 ∧ s.Applies 0 ["a.db"] ∧ (∀ r ∈ s.readings, r.place ≠ ["a.db"]) ∧
    ∀ c ∈ s.handles, s.IsServed c.queue := by
  intro s
  obtain ⟨-, -, served, -, alone⟩ := one_lock_one_writer {} [.ask "a.db", .ask "./a.db",
    .ask "b.db", .join 1 true, .join 0 true, .join 0 true, .exec 0 "CREATE TABLE t (n)" [],
    .advance 0 none, .advance 0 none, .beginQuery 1, .beginQuery 2]
  have applies : s.Applies 0 ["a.db"] := ⟨_, _, rfl, rfl, rfl⟩
  exact ⟨by decide +kernel, by decide +kernel, applies, (alone 0 _ applies).1,
    served (by simp)⟩

end Service

end ScriptGate.Storage
