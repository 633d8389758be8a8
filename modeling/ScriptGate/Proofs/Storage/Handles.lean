import ScriptGate.Proofs.Storage.Answers

/-!
# Handles on writes

A handle shows the answer that its write gets, from then on and no other, however often and in
whatever way it is asked.
-/

namespace ScriptGate.Storage

namespace Pending

/-- A handle has shown nothing yet, or the answer that has been given. -/
def Follows (h : Pending) (r : Reply) : Prop := h = {} ∨ ∃ o, r = .given o ∧ h = settled o

variable {h h' : Pending} {r : Reply} {o : Outcome}

theorem Follows.wait_iff (follows : h.Follows r) (kept : r ≠ .dropped) :
    h.wait r = some (o, h') ↔ r = .given o ∧ h' = settled o := by
  rcases follows with rfl | ⟨o', rfl, rfl⟩
  · cases r with
    | awaited => simp [wait]
    | given o' => simp +contextual [wait, eq_comm]
    | dropped => exact absurd rfl kept
  · simp +contextual [wait, settled, eq_comm]

theorem Follows.check_iff (follows : h.Follows r) (kept : r ≠ .dropped) :
    (h.check r).1 = some o ↔ r = .given o := by
  rcases follows with rfl | ⟨o', rfl, rfl⟩
  · cases r with
    | awaited => simp [check]
    | given o' => simp [check]
    | dropped => exact absurd rfl kept
  · simp [check, settled]

theorem Follows.mono {r' : Reply} (follows : h.Follows r)
    (kept : ∀ o, r = .given o → r' = .given o) : h.Follows r' :=
  follows.imp_right fun ⟨o, given, is_settled⟩ => ⟨o, kept o given, is_settled⟩

theorem Follows.wait (follows : h.Follows r) (kept : r ≠ .dropped)
    (shows : h.wait r = some (o, h')) : h'.Follows r := by
  obtain ⟨given, is_settled⟩ := (follows.wait_iff kept).mp shows
  exact .inr ⟨o, given, is_settled⟩

theorem Follows.check (follows : h.Follows r) (kept : r ≠ .dropped) :
    (h.check r).2.Follows r := by
  rcases follows with rfl | ⟨o', rfl, rfl⟩
  · cases r with
    | awaited => exact .inl rfl
    | given o' => exact .inr ⟨o', rfl, rfl⟩
    | dropped => exact absurd rfl kept
  · exact .inr ⟨o', rfl, rfl⟩

end Pending

namespace Ledger

variable {s s' : Ledger} {e : Event} {place : Place}

/-- An accepted write waits for its answer, or it has been applied and its answer is what came of
it. -/
theorem answer_of_accepted (order : s.InOrder) (answered : s.Answered) {w : Write}
    (member : (place, w) ∈ s.accepted) : s.pool.reply w.ticket = .awaited ∨
      ∃ a ∈ s.applied, a.place = place ∧ a.write = w ∧
        s.pool.reply w.ticket = .given a.outcome := by
  rw [← mem_acceptedAt, order.order] at member
  rcases List.mem_append.mp member with before | pending
  · obtain ⟨a, applied, rfl, rfl⟩ := mem_appliedAt.mp before
    rcases answered.given a applied with given | ⟨l, found, writes⟩
    · exact .inr ⟨a, applied, rfl, rfl, given⟩
    · refine .inl ((answered.lanes _ l found).awaited _ ?_)
      simp [Lane.unanswered, writes, Writer.unanswered]
  · cases found : s.pool.lane? place with
    | none => simp [Pool.pendingAt, found] at pending
    | some l =>
      rw [Pool.pendingAt_eq found] at pending
      exact .inl ((answered.lanes _ l found).awaited _ (Lane.unanswered_of_pending pending))

theorem reply_kept (order : s.InOrder) (answered : s.Answered) {ticket : Nat}
    (inside : ticket < s.pool.replies.size) : s.pool.reply ticket ≠ .dropped := by
  rw [← List.mem_range, ← order.tickets] at inside
  obtain ⟨⟨place, w⟩, member, rfl⟩ := List.mem_map.mp inside
  rcases answer_of_accepted order answered member with awaited | ⟨a, -, -, -, given⟩
  · simp [awaited]
  · simp [given]

/-- An answer stays as it is. -/
theorem given_changes (changes : Changes s e s') (answered : s.Answered) {ticket : Nat}
    {o : Outcome} (given : s.pool.reply ticket = .given o) :
    s'.pool.reply ticket = .given o := by
  have of_same {pool : Pool} (replies : pool.replies = s.pool.replies) :
      pool.reply ticket = .given o := (Pool.reply_congr replies ticket).trans given
  cases changes with
  | connect connected => exact of_same (Pool.lane?_connect connected).2.1
  | close n => exact given
  | wait found shows => exact given
  | check found => exact given
  | @accept n c l w pool found is_open edits room its_ticket files replies =>
    rw [Pool.reply, replies]
    show ({ s.pool with replies := s.pool.replies.push .awaited } : Pool).reply ticket = _
    rw [Pool.reply_push, if_neg, given]
    intro new
    simp [Pool.reply, new] at given
  | take idle next edits files replies => exact of_same replies
  | lock taken free edits files replies => exact of_same replies
  | apply locked gives edits is_files replies => exact of_same replies
  | @answer place trouble l w outcome pool at_ edits files replies =>
    -- The writer answers a write that has no answer, so it is another one.
    have awaited := (answered.lanes _ l edits.found).awaited w
      (by simp [Lane.unanswered, at_, Writer.unanswered])
    have apart : ticket ≠ w.ticket := by
      rintro rfl
      rw [awaited] at given
      cases given
    rw [Pool.reply, replies, Array.getD_eq_getD_getElem?,
      Array.getElem?_setIfInBounds_ne (Ne.symm apart), ← Array.getD_eq_getD_getElem?]
    exact given
  | query quiet same edits files replies => exact of_same replies

/-- There is a handle on each accepted write, and it follows the answer to that write. -/
structure HandlesFollow (s : Ledger) : Prop where
  length : s.handles.length = s.pool.replies.size
  follows : ∀ (ticket : Nat) (h : Pending), s.handles[ticket]? = some h →
    h.Follows (s.pool.reply ticket)

theorem HandlesFollow.set (holds : s.HandlesFollow) {ticket : Nat} {h : Pending}
    (follows : h.Follows (s.pool.reply ticket)) :
    HandlesFollow { s with handles := s.handles.set ticket h } := by
  refine ⟨by simpa using holds.length, fun other g found => ?_⟩
  rw [List.getElem?_set] at found
  split at found
  · rename_i same
    split at found
    · cases found
      exact same ▸ follows
    · cases found
  · exact holds.follows other g found

theorem HandlesFollow.inside (holds : s.HandlesFollow) {ticket : Nat} {h : Pending}
    (found : s.handles[ticket]? = some h) : ticket < s.pool.replies.size := by
  rw [← holds.length]
  exact (List.getElem?_eq_some_iff.mp found).1

theorem handles_changes (changes : Changes s e s') (order : s.InOrder) (answered : s.Answered)
    (holds : s.HandlesFollow) : s'.HandlesFollow := by
  have follows (ticket : Nat) (h : Pending) (found : s.handles[ticket]? = some h) :
      h.Follows (s'.pool.reply ticket) :=
    (holds.follows ticket h found).mono fun _ => given_changes changes answered
  cases changes with
  | connect connected =>
    obtain ⟨-, replies, -⟩ := Pool.lane?_connect connected
    exact ⟨by rw [replies]; exact holds.length, follows⟩
  | close n => exact ⟨holds.length, follows⟩
  | wait found shows =>
    have kept := reply_kept order answered (holds.inside found)
    exact holds.set ((holds.follows _ _ found).wait kept shows)
  | check found =>
    have kept := reply_kept order answered (holds.inside found)
    exact holds.set ((holds.follows _ _ found).check kept)
  | accept found is_open edits room ticket files replies =>
    refine ⟨?_, fun ticket h found => ?_⟩
    · rw [replies, Array.size_push, List.length_append, holds.length]
      rfl
    · rcases Nat.lt_or_ge ticket s.handles.length with inside | behind
      · rw [List.getElem?_append_left inside] at found
        exact follows ticket h found
      · rw [List.getElem?_append_right behind, List.getElem?_singleton] at found
        split at found
        · cases found
          exact .inl rfl
        · cases found
  | take idle next edits files replies => exact ⟨replies ▸ holds.length, follows⟩
  | lock taken free edits files replies => exact ⟨replies ▸ holds.length, follows⟩
  | apply locked gives edits is_files replies => exact ⟨replies ▸ holds.length, follows⟩
  | answer at_ edits files replies =>
    refine ⟨?_, follows⟩
    rw [replies, Array.size_setIfInBounds]
    exact holds.length
  | query quiet same edits files replies => exact ⟨replies ▸ holds.length, follows⟩

end Ledger

end ScriptGate.Storage
