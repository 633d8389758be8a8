import ScriptGate.Proofs.Storage.Failures
import ScriptGate.Proofs.Storage.Handles

/-!
# Serving all writes

No write keeps another one waiting for more than its turn: the number of steps that a writer has to
make until a write is answered falls by one with each of them, whatever happens in between.
-/

namespace ScriptGate.Storage

def Lock.readers : Lock → Nat
  | .shared n => n
  | .exclusive => 0

/-- How many steps a writer has to make until it has answered the first `n` writes, when it has
applied `m`. -/
def Writer.due (n m : Nat) : Writer → Nat
  | .idle => 4 * (n - m)
  | .taken _ => 4 * (n - m) - 1
  | .locked _ => 4 * (n - m) - 2
  | .applied _ _ => 4 * (n + 1 - m) - 3

namespace Writer

variable {v w : Write} {o : Outcome} {n m : Nat}

theorem due_taken : (taken w).due n m = idle.due n m - 1 := rfl

theorem due_locked : (locked w).due n m = (taken v).due n m - 1 := by
  simp only [due]
  omega

theorem due_applied : (applied w o).due n (m + 1) = (locked v).due n m - 1 := by
  simp only [due]
  omega

theorem due_idle : idle.due n m = (applied w o).due n m - 1 := by
  simp only [due]
  omega

end Writer

namespace Pool

/-- Whether no query holds the lock of a file. -/
def unread (p : Pool) (place : Place) : Bool := (p.lane? place).all fun l => l.lock.readers == 0

variable {p : Pool} {place : Place} {l : Lane} {trouble : Option String}

/-- A writer waits for a write, or for the end of a query. -/
theorem advance_none (waits : p.advance place trouble = none) (found : p.lane? place = some l)
    (sound : l.Sound) (unread : p.unread place = true) : l.writer = .idle ∧ l.waiting = [] := by
  simp only [advance, found, Option.bind_eq_bind, Option.bind_some] at waits
  split at waits
  · rename_i idle
    split at waits
    · rename_i nothing
      exact ⟨idle, nothing⟩
    · cases waits
  · rename_i w taken
    have free : l.lock = .free := by
      cases held : l.lock with
      | shared n =>
        rw [Pool.unread, found] at unread
        have none_reads : n = 0 := by simpa [held, Lock.readers] using unread
        rw [none_reads, Lock.free]
      | exclusive =>
        obtain ⟨v, locked⟩ := sound.lock.mp held
        rw [taken] at locked
        cases locked
    rw [free] at waits
    cases waits
  · cases waits
  · cases waits

end Pool

namespace Ledger

variable {s s' : Ledger} {e : Event} {place : Place} {l : Lane}

/-- What holds of a pool and its ghosts in every run. -/
structure Faithful (s : Ledger) : Prop where
  order : s.InOrder
  lanes : s.LanesSound
  store : s.Replayed
  answers : s.Answered
  handles : s.HandlesFollow

theorem faithful_start : Faithful {} where
  order := ⟨fun _ => rfl, rfl⟩
  lanes := ⟨by simp [Pool.lane?], by simp, by simp⟩
  store := ⟨rfl, fun _ => rfl, by simp⟩
  answers := ⟨by simp [Pool.lane?], by simp⟩
  handles := ⟨rfl, by simp⟩

theorem faithful_changes (s : Ledger) (e : Event) (s' : Ledger) (changes : Changes s e s')
    (holds : s.Faithful) : s'.Faithful where
  order := inOrder_changes changes holds.order
  lanes := lanesSound_changes changes holds.lanes
  store := replayed_changes changes holds.store
  answers := answered_changes changes holds.order holds.answers
  handles := handles_changes changes holds.order holds.answers holds.handles

theorem faithful_step (holds : s.Faithful) (e : Event) : (s.step e).Faithful :=
  foldl_keeps faithful_changes [e] holds

theorem faithful_run (events : List Event) : (run events).Faithful :=
  foldl_keeps faithful_changes events faithful_start

/-! ### Turns of a writer -/

/-- Whether an event lets the writer of a file make a step while no query holds the lock. -/
def isTurn (s : Ledger) (place : Place) (e : Event) : Bool :=
  e.writer? == some place && s.pool.unread place

/-- How many steps the writer of a file can make in a run. -/
def turns (place : Place) : Ledger → List Event → Nat
  | _, [] => 0
  | s, e :: rest => (s.isTurn place e).toNat + turns place (s.step e) rest

/-- What has been accepted stays accepted, in its place. -/
theorem acceptedAt_grows (s : Ledger) (events : List Event) (place : Place) :
    s.acceptedAt place <+: (events.foldl step s).acceptedAt place := by
  have kept : s.accepted <+: (events.foldl step s).accepted :=
    foldl_keeps (P := fun t => s.accepted <+: t.accepted)
      (fun t e t' changes before => before.trans (by cases changes <;> simp)) events
      (List.prefix_refl _)
  exact (kept.filter _).map _

theorem due_edits {at_ : Place} {before after : Lane} (n : Nat)
    (edits : s.pool.Edits at_ before after s'.pool) (found : s.pool.lane? place = some l)
    (elsewhere : place ≠ at_ → s'.appliedAt place = s.appliedAt place ∧ e.writer? ≠ some place)
    (here : after.writer.due n (s'.appliedAt at_).length =
      before.writer.due n (s.appliedAt at_).length - (e.writer? == some at_).toNat) :
    ∃ l', s'.pool.lane? place = some l' ∧ l'.writer.due n (s'.appliedAt place).length =
      l.writer.due n (s.appliedAt place).length - (e.writer? == some place).toNat := by
  by_cases same : place = at_
  · subst same
    rw [edits.found] at found
    cases found
    exact ⟨after, by rw [edits.lane?, if_pos rfl], here⟩
  · obtain ⟨applied, quiet⟩ := elsewhere same
    refine ⟨l, by rw [edits.lane?, if_neg same, found], ?_⟩
    rw [applied, beq_false_of_ne quiet]
    rfl

theorem due_turn {at_ : Place} {before after : Lane} {trouble : Option String} (n : Nat)
    (edits : s.pool.Edits at_ before after s'.pool) (found : s.pool.lane? place = some l)
    (elsewhere : place ≠ at_ → s'.appliedAt place = s.appliedAt place)
    (here : after.writer.due n (s'.appliedAt at_).length =
      before.writer.due n (s.appliedAt at_).length - 1) :
    ∃ l', s'.pool.lane? place = some l' ∧ l'.writer.due n (s'.appliedAt place).length =
      l.writer.due n (s.appliedAt place).length -
        ((Event.advance at_ trouble).writer? == some place).toNat := by
  refine due_edits n edits found (fun apart => ⟨elsewhere apart, ?_⟩) ?_
  · intro same
    exact apart (Option.some.inj same).symm
  · rw [here, Event.writer?, beq_self_eq_true]
    rfl

/-- Only the writer of a file changes what is due there, and each of its steps makes it one less. -/
theorem due_changes (changes : Changes s e s') (found : s.pool.lane? place = some l) (n : Nat) :
    ∃ l', s'.pool.lane? place = some l' ∧ l'.writer.due n (s'.appliedAt place).length =
      l.writer.due n (s.appliedAt place).length - (e.writer? == some place).toNat := by
  cases changes with
  | connect connected => exact ⟨l, Pool.lane?_kept connected found, rfl⟩
  | close n => exact ⟨l, found, rfl⟩
  | wait => exact ⟨l, found, rfl⟩
  | check => exact ⟨l, found, rfl⟩
  | accept opened is_open edits =>
    exact due_edits n edits found (fun _ => ⟨rfl, by simp [Event.writer?]⟩) rfl
  | query quiet same edits =>
    refine due_edits n edits found (fun _ => ⟨rfl, by simp [quiet]⟩) ?_
    rw [quiet]
    rfl
  | take idle next edits =>
    refine due_turn n edits found (fun _ => rfl) ?_
    rw [idle]
    exact Writer.due_taken
  | lock taken free edits =>
    refine due_turn n edits found (fun _ => rfl) ?_
    rw [taken]
    exact Writer.due_locked
  | apply locked gives edits =>
    refine due_turn n edits found (fun apart => ?_) ?_
    · rw [appliedAt_append rfl, if_neg apart]
    · rw [appliedAt_append rfl, if_pos rfl, List.length_append, locked]
      exact Writer.due_applied
  | answer applied edits =>
    refine due_turn n edits found (fun _ => rfl) ?_
    rw [applied]
    exact Writer.due_idle

theorem isTurn_cases (turn : s.isTurn place e = true) :
    ∃ trouble, e = .advance place trouble ∧ s.pool.unread place = true := by
  unfold isTurn at turn
  rw [Bool.and_eq_true, beq_iff_eq] at turn
  cases e with
  | advance other trouble =>
    cases turn.1
    exact ⟨trouble, rfl, turn.2⟩
  | _ => cases turn.1

theorem due_of_nothing (order : s.InOrder) (found : s.pool.lane? place = some l)
    (idle : l.writer = .idle) (nothing : l.waiting = []) {n : Nat}
    (inside : n ≤ (s.acceptedAt place).length) :
    l.writer.due n (s.appliedAt place).length = 0 := by
  have all : s.acceptedAt place = s.appliedAt place := by
    rw [order.order, Pool.pendingAt_eq found, Lane.pending, idle, nothing]
    exact List.append_nil _
  rw [all] at inside
  rw [idle, Writer.due]
  omega

theorem due_step (holds : s.Faithful) (found : s.pool.lane? place = some l) {n : Nat}
    (inside : n ≤ (s.acceptedAt place).length) (e : Event) :
    ∃ l', (s.step e).pool.lane? place = some l' ∧
      l'.writer.due n ((s.step e).appliedAt place).length ≤
        l.writer.due n (s.appliedAt place).length - (s.isTurn place e).toNat := by
  cases turn : s.isTurn place e with
  | true =>
    obtain ⟨trouble, rfl, unread⟩ := isTurn_cases turn
    cases advanced : s.pool.advance place trouble with
    -- A writer that cannot step has no write to take, so that all are applied and answered.
    | none =>
      have same : s.step (.advance place trouble) = s := by rw [step, advanced]
      obtain ⟨idle, nothing⟩ :=
        Pool.advance_none advanced found (holds.lanes.lanes _ _ found) unread
      have zero := due_of_nothing holds.order found idle nothing inside
      exact ⟨l, by rw [same, found], by rw [same, zero]; exact Nat.zero_le _⟩
    | some pool =>
      obtain ⟨l', found', less⟩ := due_changes (changes_advance advanced) found n
      refine ⟨l', by rw [step, advanced]; exact found', ?_⟩
      rw [step, advanced]
      simpa [Event.writer?] using Nat.le_of_eq less
  | false =>
    rcases step_cases s e with same | changes
    · exact ⟨l, by rw [same, found], by rw [same]; exact Nat.le_refl _⟩
    · obtain ⟨l', found', less⟩ := due_changes changes found n
      exact ⟨l', found', less ▸ Nat.sub_le _ _⟩

/-- After a run, no more is due than what was before it less the turns of the writer. -/
theorem due_run (holds : s.Faithful) (found : s.pool.lane? place = some l) {n : Nat}
    (inside : n ≤ (s.acceptedAt place).length) (events : List Event) :
    ∃ l', (events.foldl step s).pool.lane? place = some l' ∧
      l'.writer.due n ((events.foldl step s).appliedAt place).length ≤
        l.writer.due n (s.appliedAt place).length - turns place s events := by
  induction events generalizing s l with
  | nil => exact ⟨l, found, Nat.le_refl _⟩
  | cons e rest ih =>
    obtain ⟨m, found', first⟩ := due_step holds found inside e
    have grows := (acceptedAt_grows s [e] place).length_le
    obtain ⟨l', found'', later⟩ :=
      ih (faithful_step holds e) found' (Nat.le_trans inside grows)
    refine ⟨l', found'', ?_⟩
    rw [List.foldl_cons, turns]
    omega

/-- When nothing more is due for the first writes on a file, they are applied and answered. -/
theorem answered_of_due (holds : s.Faithful) (found : s.pool.lane? place = some l) {n : Nat}
    (done : l.writer.due n (s.appliedAt place).length = 0) {w : Write}
    (member : w ∈ (s.acceptedAt place).take n) : ∃ a ∈ s.applied, a.place = place ∧ a.write = w ∧
      s.pool.reply w.ticket = .given a.outcome := by
  have inside : n ≤ (s.appliedAt place).length := by
    cases at_ : l.writer <;> simp only [at_, Writer.due] at done <;> omega
  rw [holds.order.order, List.take_append_of_le_length inside] at member
  obtain ⟨a, applied, rfl, rfl⟩ := mem_appliedAt.mp (List.mem_of_mem_take member)
  rcases holds.answers.given a applied with given | ⟨m, found', writes⟩
  · exact ⟨a, applied, rfl, rfl, given⟩
  -- A write that is still to be answered is the last one, and nothing would be due only behind it.
  rw [found] at found'
  cases found'
  obtain ⟨before, b, split, same, -⟩ := (holds.answers.lanes _ l found).last _ _ writes
  have sent : s.appliedAt a.place = before.map Application.write ++ [a.write] := by
    rw [appliedAt, split, List.map_append, List.map_singleton, same]
  have shorter : n ≤ (before.map Application.write).length := by
    rw [writes, Writer.due, sent, List.length_append, List.length_singleton] at done
    omega
  rw [sent, List.take_append_of_le_length shorter] at member
  have nodup := holds.order.nodup_at a.place
  rw [holds.order.order, sent] at nodup
  have apart := (List.nodup_append.mp (List.nodup_append.mp nodup).1).2.2
  exact absurd rfl (apart _ (List.mem_of_mem_take member) _ (List.mem_singleton_self _))

/-! ### What is promised about writes -/

/-- An open connection gets its write accepted, unless as many are waiting as may. -/
theorem exec_accepts (holds : s.Faithful) {n : Nat} {c : Connection}
    (found : s.connections[n]? = some c) (is_open : c.isOpen = true) (sql : String)
    (parameters : List Sql.Value) : ∃ l, s.pool.lane? c.place = some l ∧
      (s.step (.exec n sql parameters)).accepted = if l.waiting.length < capacity
        then s.accepted ++ [(c.place, ⟨s.pool.replies.size, sql, parameters⟩)] else s.accepted := by
  obtain ⟨l, lane⟩ :=
    Option.isSome_iff_exists.mp (holds.lanes.homes c (List.mem_of_getElem? found))
  refine ⟨l, lane, ?_⟩
  simp only [step, found, Pool.submit, is_open, lane]
  by_cases full : capacity ≤ l.waiting.length
  · simp [full]
  · simp [full, Nat.lt_of_not_le full]

/-- What a write that has been applied makes of the store in its turn. -/
theorem replay_writes (holds : s.Faithful) {i : Nat} {a : Application}
    (found : s.applied[i]? = some a) :
    (Store.replay (s.applied.take i)).Writes a (Store.replay (s.applied.take (i + 1))) := by
  rw [List.take_add_one, found, Option.toList_some, Store.replay_append]
  exact Store.writes_apply (holds.store.outcomes i a found)

theorem replay_failed (holds : s.Faithful) {i : Nat} {a : Application} {fault : Fault}
    (found : s.applied[i]? = some a) (failed : a.outcome = .error fault) (place : Place) :
    (Store.replay (s.applied.take (i + 1))).files.committed place =
        (Store.replay (s.applied.take i)).files.committed place ∧
      (Store.replay (s.applied.take (i + 1))).current place =
        (Store.replay (s.applied.take i)).current place := by
  have its_outcome := holds.store.outcomes i a found
  rw [failed] at its_outcome
  rw [List.take_add_one, found, Option.toList_some, Store.replay_append]
  exact Store.apply_error its_outcome.symm place

/-- A handle shows what came of its own write, and does so as soon as there is an answer. -/
theorem handle_shows (holds : s.Faithful) {w : Write} (member : (place, w) ∈ s.accepted) :
    ∃ h, s.handles[w.ticket]? = some h ∧ ∀ o,
      ((h.check (s.pool.reply w.ticket)).1 = some o ↔ s.pool.reply w.ticket = .given o) ∧
      ((∃ h', h.wait (s.pool.reply w.ticket) = some (o, h')) ↔
        s.pool.reply w.ticket = .given o) := by
  have inside := holds.order.ticket_lt member
  have kept := reply_kept holds.order holds.answers inside
  rw [← holds.handles.length] at inside
  have found := List.getElem?_eq_getElem inside
  have follows := holds.handles.follows _ _ found
  refine ⟨_, found, fun o => ⟨follows.check_iff kept, ?_⟩⟩
  simp [follows.wait_iff kept]

theorem given_later (holds : s.Faithful) {ticket : Nat} {o : Outcome}
    (given : s.pool.reply ticket = .given o) (events : List Event) :
    (events.foldl step s).pool.reply ticket = .given o := by
  let P (t : Ledger) : Prop := t.Faithful ∧ t.pool.reply ticket = .given o
  have keeps (t : Ledger) (e : Event) (t' : Ledger) (changes : Changes t e t') (before : P t) :
      P t' :=
    ⟨faithful_changes t e t' changes before.1, given_changes changes before.1.answers before.2⟩
  exact (foldl_keeps keeps events ⟨holds, given⟩).2

theorem due_le (n m : Nat) (writer : Writer) : writer.due n m ≤ 4 * (n + 1 - m) := by
  cases writer <;> simp only [Writer.due] <;> omega

/-- The first writes on a file are answered after four steps of its writer for each of them that has
not been applied, and one more write. -/
theorem answered_in_turn (holds : s.Faithful) {n : Nat} (events : List Event)
    (enough : 4 * (n + 1 - (s.appliedAt place).length) ≤ turns place s events) {w : Write}
    (member : w ∈ (s.acceptedAt place).take n) :
    ∃ a ∈ (events.foldl step s).applied, a.place = place ∧ a.write = w ∧
      (events.foldl step s).pool.reply w.ticket = .given a.outcome := by
  rw [List.take_eq_take_min] at member
  have inside := Nat.min_le_right n (s.acceptedAt place).length
  have lane : (s.pool.lane? place).isSome :=
    holds.lanes.queues (place, w) (mem_acceptedAt.mp (List.mem_of_mem_take member))
  obtain ⟨l, found⟩ := Option.isSome_iff_exists.mp lane
  obtain ⟨l', found', due⟩ := due_run holds found inside events
  have bound := due_le (min n (s.acceptedAt place).length) (s.appliedAt place).length l.writer
  have done : l'.writer.due (min n (s.acceptedAt place).length)
      ((events.foldl step s).appliedAt place).length = 0 := by omega
  refine answered_of_due (foldl_keeps faithful_changes events holds) found' done ?_
  obtain ⟨rest, same⟩ := acceptedAt_grows s events place
  rw [← same, List.take_append_of_le_length inside]
  exact member

/-- Every file gets its accepted writes applied, each once and in the order of their acceptance,
with at most a hundred of them waiting, whichever connections hand them in and are closed. In its
turn the statement of a write is executed on what the writes before it have left, unless the file
cannot be opened; its handle shows the outcome that it has there and no other, and where that is a
failure, it leaves everything as it is. However the run goes on, a write is answered once its writer
has had its turns. -/
theorem writes_served_in_order (events more : List Event) :
    let s := run events
    let later := run (events ++ more)
    (∀ place, s.acceptedAt place = s.appliedAt place ++ s.pool.pendingAt place ∧
      s.acceptedAt place <+: later.acceptedAt place) ∧
    (s.accepted.map (·.2.ticket)).Nodup ∧
    (∀ place l, s.pool.lane? place = some l → l.waiting.length ≤ 100) ∧
    (∀ n c sql parameters, s.connections[n]? = some c → c.isOpen = true →
      ∃ l, s.pool.lane? c.place = some l ∧ (s.step (.exec n sql parameters)).accepted =
        if l.waiting.length < 100
          then s.accepted ++ [(c.place, ⟨s.pool.replies.size, sql, parameters⟩)]
          else s.accepted) ∧
    s.pool.files = (Store.replay s.applied).files ∧
    (∀ place, s.pool.connectionAt place = (Store.replay s.applied).connections place) ∧
    (∀ i a, s.applied[i]? = some a →
      (Store.replay (s.applied.take i)).Writes a (Store.replay (s.applied.take (i + 1))) ∧
      a.outcome = ((Store.replay (s.applied.take i)).apply a).2 ∧
      ∀ fault, a.outcome = .error fault → ∀ place,
        (Store.replay (s.applied.take (i + 1))).files.committed place =
            (Store.replay (s.applied.take i)).files.committed place ∧
          (Store.replay (s.applied.take (i + 1))).current place =
            (Store.replay (s.applied.take i)).current place) ∧
    (∀ place w, (place, w) ∈ s.accepted →
      (s.pool.reply w.ticket = .awaited ∨ ∃ a ∈ s.applied, a.place = place ∧ a.write = w ∧
        s.pool.reply w.ticket = .given a.outcome ∧
        later.pool.reply w.ticket = .given a.outcome) ∧
      ∃ h, s.handles[w.ticket]? = some h ∧ ∀ o,
        ((h.check (s.pool.reply w.ticket)).1 = some o ↔ s.pool.reply w.ticket = .given o) ∧
        ((∃ h', h.wait (s.pool.reply w.ticket) = some (o, h')) ↔
          s.pool.reply w.ticket = .given o)) ∧
    (∀ place n, 4 * (n + 1 - (s.appliedAt place).length) ≤ turns place s more →
      ∀ w ∈ (s.acceptedAt place).take n, ∃ a ∈ later.applied, a.place = place ∧ a.write = w ∧
        later.pool.reply w.ticket = .given a.outcome) := by
  intro s later
  have holds : s.Faithful := faithful_run events
  have continued : later = more.foldl step s := run_append events more
  refine ⟨fun place => ⟨holds.order.order place, ?_⟩, holds.order.nodup, ?_, ?_,
    holds.store.files, holds.store.connections,
    fun i a found => ⟨replay_writes holds found, holds.store.outcomes i a found, ?_⟩,
    fun place w member => ⟨?_, handle_shows holds member⟩, ?_⟩
  · rw [continued]
    exact acceptedAt_grows s more place
  · intro place l found
    exact (holds.lanes.lanes place l found).room
  · intro n c sql parameters found is_open
    exact exec_accepts holds found is_open sql parameters
  · intro fault failed place
    exact replay_failed holds found failed place
  · refine (answer_of_accepted holds.order holds.answers member).imp_right ?_
    rintro ⟨a, applied, at_place, write, given⟩
    refine ⟨a, applied, at_place, write, given, ?_⟩
    rw [continued]
    exact given_later holds given more
  · intro place n enough w member
    rw [continued]
    exact answered_in_turn holds more enough member

/-- Two connections to one file hand in three writes and are closed. The file cannot be opened for
the first write, and the second one is no statement; the third one makes its table. -/
theorem third_write_served_behind_failures :
    let queue : List Event := [.connect "a.db", .connect "./a.db", .exec 0 "CREATE TABLE t (n)" [],
      .exec 1 "nonsense" [], .exec 1 "CREATE TABLE t (n)" [], .close 0, .close 1]
    let steps : List Event := List.replicate 3 (.advance ["a.db"] (some "disk I/O error")) ++
      List.replicate 13 (.advance ["a.db"] none)
    let s := run (queue ++ steps)
    (∃ a ∈ s.applied, a.write = ⟨2, "CREATE TABLE t (n)", []⟩ ∧
      s.pool.reply 2 = .given a.outcome) ∧
    [0, 1, 2].map (fun n => (({} : Pending).check (s.pool.reply n)).1) =
      [some (.error (.database "disk I/O error")), some (.error (.database "syntax error")),
        some (.ok 0)] ∧
    [4, 8, 16].map (fun n => ((run (queue ++ steps.take n)).pool.files.committed ["a.db"]).tables.map
      (·.schema.name)) = [[], [], ["t"]] := by
  intro queue steps s
  have enough : 4 * (3 + 1 - ((run queue).appliedAt ["a.db"]).length) ≤
      turns ["a.db"] (run queue) steps := by decide +kernel
  have accepted : (run queue).acceptedAt ["a.db"] = [⟨0, "CREATE TABLE t (n)", []⟩,
      ⟨1, "nonsense", []⟩, ⟨2, "CREATE TABLE t (n)", []⟩] := rfl
  refine ⟨?_, by decide +kernel, by decide +kernel⟩
  obtain ⟨-, -, -, -, -, -, -, -, served⟩ := writes_served_in_order queue steps
  obtain ⟨a, applied, -, write, given⟩ := served ["a.db"] 3 enough ⟨2, "CREATE TABLE t (n)", []⟩
    (by rw [accepted]; simp)
  exact ⟨a, applied, write, given⟩

end Ledger

end ScriptGate.Storage
