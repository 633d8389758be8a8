import ScriptGate.Storage.Pool

/-!
# What the steps of a pool change

Each operation of a pool changes one lane at most. What the writer of a lane does next follows from
what it is at: `Advances` lists its steps.
-/

namespace ScriptGate.Storage

/-- The writes of a lane that are still to be applied, the next one first. -/
def Writer.inHand : Writer → List Write
  | .taken w | .locked w => [w]
  | .idle | .applied _ _ => []

def Lane.pending (l : Lane) : List Write := l.writer.inHand ++ l.waiting

namespace Pool

variable {p p' : Pool} {place other : Place} {l l' : Lane} {trouble : Option String}

/-! ### Lanes -/

theorem lookup_cons_eq {α : Type} (place other : Place) (a : α) (entries : List (Place × α)) :
    ((place, a) :: entries).lookup other =
      if other = place then some a else entries.lookup other := by
  rw [List.lookup_cons]
  by_cases same : other = place
  · simp [same]
  · simp [same, beq_false_of_ne same]

theorem lookup_replace_other (lanes : List (Place × Lane)) (apart : other ≠ place) :
    (lanes.map fun e => if e.1 = place then (place, l) else e).lookup other =
      lanes.lookup other := by
  induction lanes with
  | nil => rfl
  | cons e rest ih =>
    obtain ⟨k, old⟩ := e
    rw [List.map_cons, lookup_cons_eq]
    by_cases head : k = place
    · rw [if_pos head, lookup_cons_eq, if_neg apart, if_neg (head ▸ apart), ih]
    · rw [if_neg head, lookup_cons_eq, ih]

theorem lookup_replace_self (lanes : List (Place × Lane)) (there : (lanes.lookup place).isSome) :
    (lanes.map fun e => if e.1 = place then (place, l) else e).lookup place = some l := by
  induction lanes with
  | nil => simp at there
  | cons e rest ih =>
    obtain ⟨k, old⟩ := e
    rw [List.map_cons]
    by_cases head : k = place
    · rw [if_pos head, lookup_cons_eq, if_pos rfl]
    · rw [lookup_cons_eq, if_neg (Ne.symm head)] at there
      rw [if_neg head, lookup_cons_eq, if_neg (Ne.symm head), ih there]

theorem lane?_setLane (found : p.lane? place = some l) (l' : Lane) (other : Place) :
    (p.setLane place l').lane? other = if other = place then some l' else p.lane? other := by
  by_cases same : other = place
  · subst same
    rw [if_pos rfl]
    exact lookup_replace_self p.lanes (by rw [← lane?, found]; rfl)
  · rw [if_neg same]
    exact lookup_replace_other p.lanes same

theorem lane?_connect {path : String} {c : Connection} (connected : p.connect path = .ok (c, p')) :
    p'.files = p.files ∧ p'.replies = p.replies ∧ ∀ other, p'.lane? other =
      if other = c.place then some ((p.lane? other).getD {}) else p.lane? other := by
  unfold connect at connected
  split at connected
  · cases connected
  · rename_i at_place _
    split at connected
    · rename_i l found
      cases connected
      refine ⟨rfl, rfl, fun other => ?_⟩
      by_cases same : other = at_place
      · simp [same, found]
      · simp [same]
    · rename_i missing
      cases connected
      refine ⟨rfl, rfl, fun other => ?_⟩
      show (p.lanes ++ [(at_place, ({} : Lane))]).lookup other = _
      rw [List.lookup_append, lookup_cons_eq, ← lane?]
      by_cases same : other = at_place
      · simp [same, missing]
      · simp [same]

/-- Connecting keeps all lanes. -/
theorem lane?_kept {path : String} {c : Connection} (connected : p.connect path = .ok (c, p'))
    (found : p.lane? other = some l) : p'.lane? other = some l := by
  obtain ⟨-, -, lanes⟩ := lane?_connect connected
  rw [lanes, found]
  split <;> rfl

/-- A lane that connecting has made has nothing to do. -/
theorem lane?_made {path : String} {c : Connection} (connected : p.connect path = .ok (c, p'))
    (found : p'.lane? other = some l) : p.lane? other = some l ∨ l = {} := by
  obtain ⟨-, -, lanes⟩ := lane?_connect connected
  rw [lanes] at found
  split at found
  · cases known : p.lane? other with
    | none =>
      rw [known] at found
      exact .inr (Option.some.inj found).symm
    | some m =>
      rw [known] at found
      exact .inl found
  · exact .inl found

def pendingAt (p : Pool) (place : Place) : List Write := (p.lane? place).elim [] Lane.pending

def connectionAt (p : Pool) (place : Place) : Option Sql.Connection :=
  (p.lane? place).bind Lane.connection

/-- A pool has the lanes of another one, but for the lane of one file. -/
structure Edits (p : Pool) (place : Place) (l l' : Lane) (p' : Pool) : Prop where
  found : p.lane? place = some l
  lanes : p'.lanes = (p.setLane place l').lanes

theorem Edits.lane? (edits : Edits p place l l' p') (other : Place) :
    p'.lane? other = if other = place then some l' else p.lane? other := by
  rw [← lane?_setLane edits.found l' other, Pool.lane?, edits.lanes, Pool.lane?]

theorem Edits.pendingAt (edits : Edits p place l l' p') (other : Place) :
    p'.pendingAt other = if other = place then l'.pending else p.pendingAt other := by
  rw [Pool.pendingAt, edits.lane?]
  split <;> rfl

theorem Edits.connectionAt (edits : Edits p place l l' p') (other : Place) :
    p'.connectionAt other = if other = place then l'.connection else p.connectionAt other := by
  rw [Pool.connectionAt, edits.lane?]
  split <;> rfl

theorem Edits.pendingAt_same (edits : Edits p place l l' p') (same : l'.pending = l.pending)
    (other : Place) : p'.pendingAt other = p.pendingAt other := by
  rw [edits.pendingAt]
  split
  · rename_i here
    rw [here, same, Pool.pendingAt, edits.found]
    rfl
  · rfl

theorem Edits.connectionAt_same (edits : Edits p place l l' p')
    (same : l'.connection = l.connection) (other : Place) :
    p'.connectionAt other = p.connectionAt other := by
  rw [edits.connectionAt]
  split
  · rename_i here
    rw [here, same, Pool.connectionAt, edits.found]
    rfl
  · rfl

/-- What holds of all lanes still does when it holds of the one that has changed. -/
theorem Edits.all_lanes (edits : Edits p place l l' p') {P : Place → Lane → Prop}
    (before : ∀ other m, p.lane? other = some m → other ≠ place → P other m) (new : P place l') :
    ∀ other m, p'.lane? other = some m → P other m := by
  intro other m found
  rw [edits.lane?] at found
  split at found
  · rename_i here
    cases found
    exact here ▸ new
  · rename_i apart
    exact before other m found apart

theorem pendingAt_eq (found : p.lane? place = some l) : p.pendingAt place = l.pending := by
  rw [pendingAt, found]
  rfl

theorem connectionAt_eq (found : p.lane? place = some l) :
    p.connectionAt place = l.connection := by
  rw [connectionAt, found]
  rfl

/-! ### Answers -/

theorem reply_congr (same : p'.replies = p.replies) (ticket : Nat) :
    p'.reply ticket = p.reply ticket := by
  rw [reply, same, reply]

theorem reply_push (p : Pool) (ticket : Nat) :
    ({ p with replies := p.replies.push .awaited } : Pool).reply ticket =
      if ticket = p.replies.size then .awaited else p.reply ticket := by
  simp only [reply, Array.getD_eq_getD_getElem?, Array.getElem?_push]
  split <;> rfl

theorem reply_set {p : Pool} {ticket : Nat} (inside : ticket < p.replies.size) (r : Reply)
    (other : Nat) : ({ p with replies := p.replies.setIfInBounds ticket r } : Pool).reply other =
      if other = ticket then r else p.reply other := by
  simp only [reply, Array.getD_eq_getD_getElem?, Array.getElem?_setIfInBounds]
  by_cases same : other = ticket
  · simp [same, inside]
  · simp [same, Ne.symm same]

/-! ### Handing in and reading -/

theorem submit_accepted {c : Connection} {sql : String} {parameters : List Sql.Value}
    {ticket : Nat} (accepted : p.submit c sql parameters = .accepted ticket p') :
    ∃ l, c.isOpen = true ∧ p.lane? c.place = some l ∧ l.waiting.length < capacity ∧
      ticket = p.replies.size ∧
      p' = { p.setLane c.place { l with waiting := l.waiting ++ [⟨ticket, sql, parameters⟩] } with
        replies := p.replies.push .awaited } := by
  unfold submit at accepted
  split at accepted
  · cases accepted
  · rename_i is_open
    split at accepted
    · cases accepted
    · rename_i l found
      split at accepted
      · cases accepted
      · rename_i room
        cases accepted
        exact ⟨l, by simpa using is_open, found, Nat.lt_of_not_le room, rfl, rfl⟩

theorem beginQuery_cases (begun : p.beginQuery place = some p') :
    ∃ l lock, p.lane? place = some l ∧ (l.lock ≠ .exclusive ∧ lock ≠ .exclusive) ∧
      p' = p.setLane place { l with lock } := by
  unfold beginQuery at begun
  obtain ⟨l, found, begun⟩ := Option.bind_eq_some_iff.mp begun
  obtain ⟨lock, shared, begun⟩ := Option.bind_eq_some_iff.mp begun
  cases begun
  refine ⟨l, lock, found, ?_, rfl⟩
  cases held : l.lock with
  | exclusive =>
    rw [held] at shared
    cases shared
  | shared n =>
    rw [held] at shared
    cases shared
    simp

theorem endQuery_cases (ended : p.endQuery place = some p') :
    ∃ l, p.lane? place = some l ∧ p' = p.setLane place { l with lock := l.lock.unshare } := by
  unfold endQuery at ended
  obtain ⟨l, found, ended⟩ := Option.bind_eq_some_iff.mp ended
  cases ended
  exact ⟨l, found, rfl⟩

/-! ### The steps of a writer -/

/-- What the writer of a file does next. -/
inductive Advances (p : Pool) (place : Place) (trouble : Option String) (l : Lane) : Pool → Prop
  where
  | take {w : Write} {rest : List Write} (idle : l.writer = .idle) (next : l.waiting = w :: rest) :
      Advances p place trouble l (p.setLane place { l with waiting := rest, writer := .taken w })
  | lock {w : Write} (taken : l.writer = .taken w) (free : l.lock = .free) :
      Advances p place trouble l
        (p.setLane place { l with lock := .exclusive, writer := .locked w })
  | apply {w : Write} {files : Files} {connection : Option Sql.Connection} {outcome : Outcome}
      (locked : l.writer = .locked w)
      (gives : Pool.apply p.files place trouble l.connection w = (files, connection, outcome)) :
      Advances p place trouble l
        { p.setLane place { l with lock := .free, writer := .applied w outcome, connection } with
          files }
  | answer {w : Write} {outcome : Outcome} (applied : l.writer = .applied w outcome) :
      Advances p place trouble l
        { p.setLane place { l with writer := .idle } with
          replies := p.replies.setIfInBounds w.ticket (.given outcome) }

theorem exclude?_eq_some {lock lock' : Lock} (excluded : lock.exclude? = some lock') :
    lock = .free ∧ lock' = .exclusive := by
  unfold Lock.exclude? at excluded
  split at excluded
  · cases excluded
    exact ⟨rfl, rfl⟩
  · cases excluded

theorem advance_cases (advanced : p.advance place trouble = some p') :
    ∃ l, p.lane? place = some l ∧ Advances p place trouble l p' := by
  unfold advance at advanced
  obtain ⟨l, found, advanced⟩ := Option.bind_eq_some_iff.mp advanced
  refine ⟨l, found, ?_⟩
  split at advanced
  · rename_i idle
    split at advanced
    · cases advanced
    · rename_i next
      cases advanced
      exact .take idle next
  · rename_i taken
    obtain ⟨lock, excluded, advanced⟩ := Option.bind_eq_some_iff.mp advanced
    obtain ⟨free, rfl⟩ := exclude?_eq_some excluded
    cases advanced
    exact .lock taken free
  · rename_i locked
    cases advanced
    exact .apply locked rfl
  · rename_i applied
    cases advanced
    exact .answer applied

end Pool

end ScriptGate.Storage
