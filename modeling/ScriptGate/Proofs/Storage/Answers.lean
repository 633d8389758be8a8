import ScriptGate.Proofs.Storage.Ledger

/-!
# What writers apply and answer

The store of a run is what the applied writes make of it one after the other, whatever happens
between them, and each write gets the outcome that it has there.
-/

namespace ScriptGate.Storage

/-- The writes of a lane that still have no answer. -/
def Writer.unanswered : Writer → List Write
  | .idle => []
  | .taken w | .locked w | .applied w _ => [w]

def Lane.unanswered (l : Lane) : List Write := l.writer.unanswered ++ l.waiting

theorem Lane.mem_unanswered {l : Lane} {w : Write} (member : w ∈ l.unanswered) :
    w ∈ l.pending ∨ ∃ outcome, l.writer = .applied w outcome := by
  unfold unanswered pending at *
  cases at_ : l.writer with
  | applied v outcome =>
    rw [at_] at member
    rcases List.mem_cons.mp member with rfl | waits
    · exact .inr ⟨outcome, rfl⟩
    · exact .inl (by simpa [Writer.inHand] using waits)
  | _ =>
    rw [at_] at member
    exact .inl member

theorem Lane.unanswered_of_pending {l : Lane} {w : Write} (member : w ∈ l.pending) :
    w ∈ l.unanswered := by
  unfold unanswered pending at *
  cases at_ : l.writer with
  | applied v outcome =>
    rw [at_] at member
    exact List.mem_cons_of_mem v member
  | _ =>
    rw [at_] at member
    exact member

namespace Ledger

variable {s s' : Ledger} {e : Event} {place : Place}

/-! ### Lanes -/

/-- All lanes are sound, and every connection and every accepted write has one. -/
structure LanesSound (s : Ledger) : Prop where
  lanes : ∀ place l, s.pool.lane? place = some l → l.Sound
  homes : ∀ c ∈ s.connections, (s.pool.lane? c.place).isSome
  queues : ∀ x ∈ s.accepted, (s.pool.lane? x.1).isSome

theorem sound_new : ({} : Lane).Sound := ⟨Nat.zero_le _, by simp [Lock.free]⟩

theorem LanesSound.connect {path : String} {c : Connection} {pool : Pool} (holds : s.LanesSound)
    (connected : s.pool.connect path = .ok (c, pool)) :
    LanesSound { s with pool, connections := s.connections ++ [c] } := by
  have kept {place : Place} (there : (s.pool.lane? place).isSome) : (pool.lane? place).isSome := by
    obtain ⟨m, found⟩ := Option.isSome_iff_exists.mp there
    rw [Pool.lane?_kept connected found]
    rfl
  refine ⟨fun other m found => ?_, fun d member => ?_, fun x member => ?_⟩
  · rcases Pool.lane?_made connected found with known | rfl
    · exact holds.lanes other m known
    · exact sound_new
  · rcases List.mem_append.mp member with old | new
    · exact kept (holds.homes d old)
    · obtain ⟨-, -, lanes⟩ := Pool.lane?_connect connected
      rw [List.mem_singleton.mp new, lanes, if_pos rfl]
      rfl
  · exact kept (holds.queues x member)

/-- A lane may change into one that is sound. -/
theorem LanesSound.of_edits {l l' : Lane} (holds : s.LanesSound)
    (edits : s.pool.Edits place l l' s'.pool) (sound : l'.Sound)
    (connections : s'.connections = s.connections)
    (accepted : ∀ x ∈ s'.accepted, x ∈ s.accepted ∨ x.1 = place) : s'.LanesSound := by
  have kept {other : Place} (there : (s.pool.lane? other).isSome ∨ other = place) :
      (s'.pool.lane? other).isSome := by
    rw [edits.lane?]
    split
    · rfl
    · rename_i apart
      exact there.resolve_right apart
  refine ⟨edits.all_lanes (fun other m found _ => holds.lanes other m found) sound, ?_, ?_⟩
  · rw [connections]
    exact fun c member => kept (.inl (holds.homes c member))
  · exact fun x member => kept ((accepted x member).imp_left (holds.queues x))

theorem lanesSound_changes (changes : Changes s e s') (holds : s.LanesSound) : s'.LanesSound := by
  cases changes with
  | connect connected => exact holds.connect connected
  | close n =>
    refine ⟨holds.lanes, fun c member => ?_, holds.queues⟩
    obtain ⟨i, inside, rfl⟩ := List.mem_iff_getElem.mp member
    rw [List.getElem_modify]
    have home := holds.homes _ (List.getElem_mem (l := s.connections) (by simpa using inside))
    split
    · exact home
    · exact home
  | wait found shows => exact ⟨holds.lanes, holds.homes, holds.queues⟩
  | check found => exact ⟨holds.lanes, holds.homes, holds.queues⟩
  | @accept n c l w pool found is_open edits room =>
    refine holds.of_edits edits ⟨?_, (holds.lanes _ l edits.found).lock⟩ rfl fun x member => ?_
    · rw [List.length_append]
      exact Nat.succ_le_of_lt room
    · rcases List.mem_append.mp member with old | new
      · exact .inl old
      · exact .inr (congrArg Prod.fst (List.mem_singleton.mp new))
  | take idle next edits =>
    have sound := holds.lanes _ _ edits.found
    refine holds.of_edits edits ⟨?_, ?_⟩ rfl fun _ => .inl
    · have room := sound.room
      rw [next, List.length_cons] at room
      exact Nat.le_of_succ_le room
    · have lock := sound.lock
      rw [idle] at lock
      simpa using lock
  | lock taken free edits =>
    exact holds.of_edits edits ⟨(holds.lanes _ _ edits.found).room, by simp⟩ rfl fun _ => .inl
  | apply locked gives edits =>
    exact holds.of_edits edits ⟨(holds.lanes _ _ edits.found).room, by simp [Lock.free]⟩ rfl
      fun _ => .inl
  | answer applied edits =>
    have sound := holds.lanes _ _ edits.found
    have lock := sound.lock
    rw [applied] at lock
    exact holds.of_edits edits ⟨sound.room, by simpa using lock⟩ rfl fun _ => .inl
  | query quiet same edits =>
    have sound := holds.lanes _ _ edits.found
    exact holds.of_edits edits ⟨sound.room, same.trans sound.lock⟩ rfl fun _ => .inl

/-! ### The store -/

/-- The files and the connections of the writers are what the applied writes make of them one after
the other, and each of these writes has the outcome that it has in its turn. -/
structure Replayed (s : Ledger) : Prop where
  files : s.pool.files = (Store.replay s.applied).files
  connections : ∀ place, s.pool.connectionAt place = (Store.replay s.applied).connections place
  outcomes : ∀ i a, s.applied[i]? = some a →
    a.outcome = ((Store.replay (s.applied.take i)).apply a).2

theorem Replayed.of_same (holds : s.Replayed) (applied : s'.applied = s.applied)
    (files : s'.pool.files = s.pool.files)
    (connections : ∀ place, s'.pool.connectionAt place = s.pool.connectionAt place) :
    s'.Replayed := by
  refine ⟨?_, fun place => ?_, ?_⟩
  · rw [files, applied]
    exact holds.files
  · rw [connections, applied]
    exact holds.connections place
  · rw [applied]
    exact holds.outcomes

theorem connectionAt_connect {path : String} {c : Connection} {pool : Pool}
    (connected : s.pool.connect path = .ok (c, pool)) (other : Place) :
    pool.connectionAt other = s.pool.connectionAt other := by
  obtain ⟨-, -, lanes⟩ := Pool.lane?_connect connected
  rw [Pool.connectionAt, lanes]
  split
  · rw [Pool.connectionAt]
    cases s.pool.lane? other <;> rfl
  · rfl

theorem replayed_changes (changes : Changes s e s') (holds : s.Replayed) : s'.Replayed := by
  cases changes with
  | connect connected =>
    obtain ⟨files, -, -⟩ := Pool.lane?_connect connected
    exact holds.of_same rfl files (connectionAt_connect connected)
  | close n => exact holds.of_same rfl rfl fun _ => rfl
  | wait found shows => exact holds.of_same rfl rfl fun _ => rfl
  | check found => exact holds.of_same rfl rfl fun _ => rfl
  | accept found is_open edits room ticket files =>
    exact holds.of_same rfl files (edits.connectionAt_same rfl)
  | take idle next edits files => exact holds.of_same rfl files (edits.connectionAt_same rfl)
  | lock taken free edits files => exact holds.of_same rfl files (edits.connectionAt_same rfl)
  | answer applied edits files => exact holds.of_same rfl files (edits.connectionAt_same rfl)
  | query quiet same edits files => exact holds.of_same rfl files (edits.connectionAt_same rfl)
  | @apply place trouble l w files connection outcome pool locked gives edits is_files replies =>
    have turn : (Store.replay s.applied).apply ⟨place, w, trouble, outcome⟩ =
        (⟨files, fun other => if other = place then connection else
          (Store.replay s.applied).connections other⟩, outcome) := by
      rw [Store.apply, ← holds.files, ← holds.connections, Pool.connectionAt_eq edits.found, gives]
    refine ⟨?_, fun other => ?_, fun i a found => ?_⟩
    · rw [Store.replay_append, turn, is_files]
    · rw [Store.replay_append, turn, edits.connectionAt]
      show _ = if other = place then connection else (Store.replay s.applied).connections other
      rw [holds.connections]
    · rcases Nat.lt_or_ge i s.applied.length with inside | behind
      · rw [List.getElem?_append_left inside] at found
        rw [List.take_append_of_le_length (Nat.le_of_lt inside)]
        exact holds.outcomes i a found
      · rw [List.getElem?_append_right behind, List.getElem?_singleton] at found
        split at found
        · rename_i last
          cases found
          rw [List.take_append_of_le_length (by omega), List.take_of_length_le behind, turn]
        · cases found

/-! ### Answers -/

/-- The unanswered writes of a lane have no answer yet; if its writer has one to send, it is that of
the last write that it has applied. -/
structure Tracks (s : Ledger) (place : Place) (l : Lane) : Prop where
  awaited : ∀ w ∈ l.unanswered, s.pool.reply w.ticket = .awaited
  last : ∀ w outcome, l.writer = .applied w outcome →
    ∃ before a, s.applicationsAt place = before ++ [a] ∧ a.write = w ∧ a.outcome = outcome

/-- The answer to a write is what its writer sends next. -/
def Sends (s : Ledger) (a : Application) : Prop :=
  ∃ l, s.pool.lane? a.place = some l ∧ l.writer = .applied a.write a.outcome

/-- Every write that has been applied has its outcome for an answer, or is about to get it. -/
structure Answered (s : Ledger) : Prop where
  lanes : ∀ place l, s.pool.lane? place = some l → s.Tracks place l
  given : ∀ a ∈ s.applied, s.pool.reply a.write.ticket = .given a.outcome ∨ s.Sends a

variable {l l' : Lane} {w : Write} {outcome : Outcome} {a : Application}

theorem Tracks.applied_of_last (tracks : s.Tracks place l) (at_ : l.writer = .applied w outcome) :
    ∃ a ∈ s.applied, a.place = place ∧ a.write = w ∧ a.outcome = outcome := by
  obtain ⟨before, a, split, write, its_outcome⟩ := tracks.last w outcome at_
  have member : a ∈ s.applicationsAt place := by
    rw [split]
    exact List.mem_append_right _ (List.mem_singleton_self a)
  obtain ⟨member, at_place⟩ := List.mem_filter.mp member
  exact ⟨a, member, of_decide_eq_true at_place, write, its_outcome⟩

theorem Tracks.accepted (tracks : s.Tracks place l) (order : s.InOrder)
    (found : s.pool.lane? place = some l) (member : w ∈ l.unanswered) :
    (place, w) ∈ s.accepted := by
  rcases Lane.mem_unanswered member with pending | ⟨outcome, at_⟩
  · rw [← Pool.pendingAt_eq found] at pending
    exact order.accepted_of_pending pending
  · obtain ⟨a, applied, rfl, rfl, -⟩ := tracks.applied_of_last at_
    exact order.accepted_of_applied applied

/-- What a lane keeps unanswered may become less while its writer neither applies nor answers a
write. -/
theorem Tracks.of_fewer (tracks : s.Tracks place l)
    (applied : s'.applicationsAt place = s.applicationsAt place)
    (replies : ∀ w ∈ l'.unanswered, s'.pool.reply w.ticket = s.pool.reply w.ticket)
    (fewer : ∀ w ∈ l'.unanswered, w ∈ l.unanswered)
    (same : ∀ w outcome, l'.writer = .applied w outcome → l.writer = .applied w outcome) :
    s'.Tracks place l' := by
  refine ⟨fun w member => ?_, fun w outcome at_ => ?_⟩
  · rw [replies w member]
    exact tracks.awaited w (fewer w member)
  · rw [applied]
    exact tracks.last w outcome (same w outcome at_)

theorem Tracks.same (tracks : s.Tracks place l)
    (applied : s'.applicationsAt place = s.applicationsAt place)
    (replies : ∀ w ∈ l.unanswered, s'.pool.reply w.ticket = s.pool.reply w.ticket) :
    s'.Tracks place l := tracks.of_fewer applied replies (fun _ => id) fun _ _ => id

theorem Sends.of_edits (sends : s.Sends a) (edits : s.pool.Edits place l l' s'.pool)
    (kept : a.place = place → l.writer = .applied a.write a.outcome →
      l'.writer = .applied a.write a.outcome) : s'.Sends a := by
  obtain ⟨m, found, at_⟩ := sends
  unfold Sends
  rw [edits.lane?]
  split
  · rename_i here
    rw [here, edits.found] at found
    cases found
    exact ⟨l', rfl, kept here at_⟩
  · exact ⟨m, found, at_⟩

theorem Answered.of_pool (holds : s.Answered) (pool : s'.pool = s.pool)
    (applied : s'.applied = s.applied) : s'.Answered := by
  refine ⟨fun place l found => ?_, fun a member => ?_⟩
  · rw [pool] at found
    exact (holds.lanes place l found).same (applicationsAt_congr applied place)
      fun w _ => by rw [pool]
  · rw [applied] at member
    rw [Sends, pool]
    exact holds.given a member

theorem Answered.connect {path : String} {c : Connection} (holds : s.Answered)
    (connected : s.pool.connect path = .ok (c, s'.pool)) (applied : s'.applied = s.applied) :
    s'.Answered := by
  obtain ⟨-, replies, -⟩ := Pool.lane?_connect connected
  refine ⟨fun other m found => ?_, fun a member => ?_⟩
  · rcases Pool.lane?_made connected found with known | rfl
    · exact (holds.lanes other m known).same (applicationsAt_congr applied other)
        fun w _ => Pool.reply_congr replies w.ticket
    · exact ⟨by simp [Lane.unanswered, Writer.unanswered], by simp⟩
  · rw [applied] at member
    rw [Pool.reply_congr replies]
    refine (holds.given a member).imp_right fun ⟨m, found, at_⟩ => ?_
    exact ⟨m, Pool.lane?_kept connected found, at_⟩

/-- As long as nothing is applied and no accepted write is answered, a lane may change into one that
is right about its own writes. -/
theorem Answered.of_edits (holds : s.Answered) (order : s.InOrder)
    (edits : s.pool.Edits place l l' s'.pool) (applied : s'.applied = s.applied)
    (replies : ∀ x ∈ s.accepted, s'.pool.reply x.2.ticket = s.pool.reply x.2.ticket)
    (tracks : s.Tracks place l → s'.Tracks place l')
    (kept : ∀ w outcome, l.writer = .applied w outcome → l'.writer = .applied w outcome) :
    s'.Answered := by
  refine ⟨edits.all_lanes (P := s'.Tracks) (fun other m found _ => ?_)
    (tracks (holds.lanes place l edits.found)), fun a member => ?_⟩
  · have before := holds.lanes other m found
    exact before.same (applicationsAt_congr applied other)
      fun v waits => replies _ (before.accepted order found waits)
  · rw [applied] at member
    rw [replies _ (order.accepted_of_applied member)]
    exact (holds.given a member).imp_right fun sends => sends.of_edits edits fun _ => kept _ _

theorem Answered.of_fewer (holds : s.Answered) (order : s.InOrder)
    (edits : s.pool.Edits place l l' s'.pool) (applied : s'.applied = s.applied)
    (replies : s'.pool.replies = s.pool.replies)
    (fewer : ∀ w ∈ l'.unanswered, w ∈ l.unanswered)
    (same : ∀ w outcome, l'.writer = .applied w outcome ↔ l.writer = .applied w outcome) :
    s'.Answered := by
  have reply (ticket : Nat) := Pool.reply_congr replies ticket
  refine holds.of_edits order edits applied (fun x _ => reply x.2.ticket) (fun tracks => ?_)
    fun w outcome => (same w outcome).mpr
  exact tracks.of_fewer (applicationsAt_congr applied place) (fun w _ => reply w.ticket) fewer
    fun w outcome => (same w outcome).mp

theorem Answered.accept (holds : s.Answered) (order : s.InOrder)
    (edits : s.pool.Edits place l { l with waiting := l.waiting ++ [w] } s'.pool)
    (ticket : w.ticket = s.pool.replies.size)
    (replies : s'.pool.replies = s.pool.replies.push .awaited)
    (applied : s'.applied = s.applied) : s'.Answered := by
  have reply (other : Nat) : s'.pool.reply other =
      if other = s.pool.replies.size then .awaited else s.pool.reply other := by
    rw [← Pool.reply_push, Pool.reply, replies, Pool.reply]
  have old (x : Place × Write) (member : x ∈ s.accepted) :
      s'.pool.reply x.2.ticket = s.pool.reply x.2.ticket := by
    rw [reply, if_neg (Nat.ne_of_lt (order.ticket_lt member))]
  refine holds.of_edits order edits applied old (fun tracks => ⟨fun v member => ?_, ?_⟩)
    fun _ _ => id
  · rw [Lane.unanswered, ← List.append_assoc] at member
    rcases List.mem_append.mp member with before | new
    · rw [old (place, v) (tracks.accepted order edits.found before)]
      exact tracks.awaited v before
    · rw [List.mem_singleton.mp new, reply, if_pos ticket]
  · rw [applicationsAt_congr applied]
    exact tracks.last

theorem Answered.apply {connection : Option Sql.Connection} (holds : s.Answered)
    (locked : l.writer = .locked a.write)
    (edits : s.pool.Edits a.place l
      { l with lock := .free, writer := .applied a.write a.outcome, connection } s'.pool)
    (replies : s'.pool.replies = s.pool.replies) (applied : s'.applied = s.applied ++ [a]) :
    s'.Answered := by
  refine ⟨edits.all_lanes (P := s'.Tracks) (fun other m found apart => ?_) ?_, fun b member => ?_⟩
  · have applications : s'.applicationsAt other = s.applicationsAt other := by
      simp [applicationsAt, applied, Ne.symm apart]
    exact (holds.lanes other m found).same applications
      fun w _ => Pool.reply_congr replies w.ticket
  · refine ⟨fun w member => ?_, fun w outcome at_ => ?_⟩
    · rw [Pool.reply_congr replies]
      refine (holds.lanes _ l edits.found).awaited w ?_
      rw [Lane.unanswered, locked]
      exact member
    · cases at_
      exact ⟨s.applicationsAt a.place, a, by simp [applicationsAt, applied], rfl, rfl⟩
  · rw [applied] at member
    rcases List.mem_append.mp member with old | new
    · rw [Pool.reply_congr replies]
      refine (holds.given b old).imp_right fun sends => sends.of_edits edits fun _ at_ => ?_
      rw [locked] at at_
      cases at_
    · rw [List.mem_singleton.mp new]
      have here := edits.lane? a.place
      rw [if_pos rfl] at here
      exact .inr ⟨_, here, rfl⟩

theorem Answered.answer (holds : s.Answered) (order : s.InOrder)
    (at_ : l.writer = .applied w outcome)
    (edits : s.pool.Edits place l { l with writer := .idle } s'.pool)
    (replies : s'.pool.replies = s.pool.replies.setIfInBounds w.ticket (.given outcome))
    (applied : s'.applied = s.applied) : s'.Answered := by
  have tracks := holds.lanes place l edits.found
  obtain ⟨a, member, rfl, rfl, rfl⟩ := tracks.applied_of_last at_
  have accepted := order.accepted_of_applied member
  have reply (other : Nat) : s'.pool.reply other =
      if other = a.write.ticket then .given a.outcome else s.pool.reply other := by
    rw [← Pool.reply_set (order.ticket_lt accepted), Pool.reply, replies, Pool.reply]
  have others {x : Place × Write} (before : x ∈ s.accepted) (apart : x ≠ (a.place, a.write)) :
      s'.pool.reply x.2.ticket = s.pool.reply x.2.ticket := by
    rw [reply, if_neg fun same => apart (order.unique before accepted same)]
  refine ⟨edits.all_lanes (P := s'.Tracks) (fun other m found apart => ?_) ?_, fun b member => ?_⟩
  -- The answer goes to one ticket, which no write has that is still to be answered.
  · have tracks := holds.lanes other m found
    refine tracks.same (applicationsAt_congr applied other) fun v waits => ?_
    exact others (tracks.accepted order found waits) fun same => apart (congrArg Prod.fst same)
  · refine tracks.of_fewer (applicationsAt_congr applied _) (fun v waits => ?_)
      (fun v waits => ?_) (by simp)
    · have pending : v ∈ s.pool.pendingAt a.place := by
        rw [Pool.pendingAt_eq edits.found, Lane.pending, at_]
        exact waits
      rw [reply, if_neg (order.not_pending member pending)]
    · rw [Lane.unanswered, at_]
      exact List.mem_append_right _ waits
  · rw [applied] at member
    rw [reply]
    split
    · rename_i same
      have pair := order.unique (order.accepted_of_applied member) accepted same
      rcases holds.given b member with given | ⟨m, found, writes⟩
      · rw [same, tracks.awaited a.write (by simp [Lane.unanswered, at_, Writer.unanswered])]
          at given
        cases given
      · have here : b.place = a.place := congrArg Prod.fst pair
        rw [here, edits.found] at found
        cases found
        rw [at_] at writes
        exact .inl (congrArg Reply.given (Writer.applied.inj writes).2)
    · rename_i apart
      refine (holds.given b member).imp_right fun sends => sends.of_edits edits fun _ writes => ?_
      rw [at_] at writes
      exact absurd (congrArg Write.ticket (Writer.applied.inj writes).1.symm) apart

theorem answered_changes (changes : Changes s e s') (order : s.InOrder) (holds : s.Answered) :
    s'.Answered := by
  cases changes with
  | connect connected => exact holds.connect connected rfl
  | close n => exact holds.of_pool rfl rfl
  | wait found shows => exact holds.of_pool rfl rfl
  | check found => exact holds.of_pool rfl rfl
  | accept found is_open edits room ticket files replies =>
    exact holds.accept order edits ticket replies rfl
  | take idle next edits files replies =>
    refine holds.of_fewer order edits rfl replies (fun w member => ?_) (by simp [idle])
    rw [Lane.unanswered, idle, next]
    exact member
  | lock taken free edits files replies =>
    refine holds.of_fewer order edits rfl replies (fun w member => ?_) (by simp [taken])
    rw [Lane.unanswered, taken]
    exact member
  | apply locked gives edits is_files replies => exact holds.apply locked edits replies rfl
  | answer at_ edits files replies => exact holds.answer order at_ edits replies rfl
  | query quiet same edits files replies =>
    exact holds.of_fewer order edits rfl replies (fun _ => id) fun _ _ => Iff.rfl

end Ledger

end ScriptGate.Storage
