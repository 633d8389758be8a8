import ScriptGate.Proofs.Storage.Serving

/-!
# Writes that last

All who write to a file share the connection of its writer, and with it a transaction that any of
them has begun. What is committed in a file is what the writes make of it, one after the other, that
were applied outside of a transaction or in one that has been committed since (`Standing`). These
writes last; those of a transaction that is rolled back are undone, whoever has handed them in.
-/

namespace ScriptGate

/-! ### Statements inside and outside of a transaction -/

namespace Sql

inductive Bracket where
  | begins
  | commits
  | rollsBack

def Statement.bracket? : Statement → Option Bracket
  | .begin => some .begins
  | .commit => some .commits
  | .rollback => some .rollsBack
  | _ => none

namespace Connection

variable {c : Connection} {committed : Database} {parameters : List Value}

/-- A connection commits what a statement makes of a database, or keeps it inside a transaction. -/
def Makes (c : Connection) (committed made : Database) (o : Sql.Outcome) : Prop :=
  o.committed = (if c.own.isSome then committed else made) ∧
    o.connection.own = c.own.map fun _ => made

theorem makes_unchanged (c : Connection) (committed : Database) (changes : Nat)
    (answer : Except Fault Nat) :
    c.Makes committed (c.current committed) ⟨committed, { c with changes }, answer⟩ := by
  cases own : c.own with
  | none => simp [Makes, current, own]
  | some d => simp [Makes, current, own]

theorem makes_keep (c : Connection) (committed made : Database) (changes : Nat) :
    c.Makes committed made (keep { c with changes } committed made) := by
  cases own : c.own with
  | none => simp [Makes, keep, own]
  | some d => simp [Makes, keep, own]

/-- A statement that is no bracket does the same to a database, be it committed or inside a
transaction. -/
theorem run_makes (c : Connection) (committed : Database) {s : Statement}
    (plain : s.bracket? = none) :
    c.Makes committed (({} : Connection).run (c.current committed) parameters s).committed
      (c.run committed parameters s) := by
  have alone : ({} : Connection).current (c.current committed) = c.current committed := rfl
  unfold run
  rw [alone]
  cases s with
  | begin => cases plain
  | commit => cases plain
  | rollback => cases plain
  -- Any other statement works on the current database, on whichever side of a `BEGIN` that is.
  | _ =>
    dsimp only
    split
    · exact makes_unchanged c committed c.changes _
    · exact makes_unchanged c committed c.changes _
    · split
      · exact makes_unchanged c committed c.changes _
      · exact makes_unchanged c committed 0 _
      · exact makes_keep c committed _ _
      · split
        · exact makes_unchanged c committed c.changes _
        · exact makes_keep c committed _ c.changes
        · exact makes_unchanged c committed c.changes _

end Connection

end Sql

namespace Storage

/-! ### What writes make of a database -/

/-- What a write does to a transaction; nothing if it is a plain one. -/
def Write.bracket? (w : Write) : Option Sql.Bracket :=
  match Sql.prepare w.sql w.parameters with
  | .ok s => s.bracket?
  | .error _ => none

def Write.effect (w : Write) (d : Sql.Database) : Sql.Database :=
  (({} : Sql.Connection).execute d w.sql w.parameters).committed

def Write.effects (ws : List Write) : Sql.Database := ws.foldl (fun d w => w.effect d) {}

theorem Write.effects_append (ws : List Write) (w : Write) :
    effects (ws ++ [w]) = w.effect (effects ws) := by
  simp [effects]

/-- The writes on a file that have been applied: those that last, those of a transaction that is
open, and those that have been undone. -/
structure Standing where
  lasting : List Write := []
  transaction : Option (List Write) := none
  undone : List Write := []

namespace Standing

/-- One more write that succeeds. -/
def add (t : Standing) (w : Write) : Standing :=
  match w.bracket?, t.transaction with
  | none, none => { t with lasting := t.lasting ++ [w] }
  | none, some ws => { t with transaction := some (ws ++ [w]) }
  | some .begins, none => { t with transaction := some [] }
  | some .commits, some ws => { t with lasting := t.lasting ++ ws, transaction := none }
  | some .rollsBack, some ws => { t with transaction := none, undone := t.undone ++ ws }
  | some _, _ => t

/-- One more write that has been applied to some file. -/
def next (place : Place) (t : Standing) (a : Application) : Standing :=
  if a.place = place then
    match a.outcome with
    | .ok _ => t.add a.write
    | .error _ => t
  else t

def ofApplied (place : Place) (applied : List Application) : Standing :=
  applied.foldl (next place) {}

/-- What is committed in a file, and the database of the writer inside a transaction. -/
structure Accounts (t : Standing) (committed : Sql.Database) (own : Option Sql.Database) :
    Prop where
  committed : committed = Write.effects t.lasting
  own : own = t.transaction.map fun ws => Write.effects (t.lasting ++ ws)

variable {t : Standing} {w : Write} {c : Sql.Connection} {d : Sql.Database} {n : Nat}

theorem Accounts.plain (holds : t.Accounts d c.own) (plain : w.bracket? = none)
    {o : Sql.Outcome} (makes : c.Makes d (w.effect (c.current d)) o) :
    (t.add w).Accounts o.committed o.connection.own := by
  obtain ⟨committed, own⟩ := holds
  obtain ⟨committed', own'⟩ := makes
  unfold add
  cases inside : t.transaction with
  | none =>
    rw [inside, Option.map_none] at own
    rw [own] at committed' own'
    rw [committed', own', plain]
    refine ⟨?_, ?_⟩
    · simp [Sql.Connection.current, own, committed, Write.effects_append]
    · simp
  | some ws =>
    rw [inside, Option.map_some] at own
    rw [own] at committed' own'
    rw [committed', own', plain]
    refine ⟨?_, ?_⟩
    · simp [committed]
    · simp [Sql.Connection.current, own, ← List.append_assoc, Write.effects_append]

theorem Accounts.bracket (holds : t.Accounts d c.own) {s : Sql.Statement} {b : Sql.Bracket}
    {parameters : List Sql.Value} (kind : s.bracket? = some b) (same : w.bracket? = some b)
    (succeeds : (c.run d parameters s).answer = .ok n) :
    (t.add w).Accounts (c.run d parameters s).committed (c.run d parameters s).connection.own := by
  obtain ⟨committed, own⟩ := holds
  unfold Standing.add
  rw [same]
  cases inside : t.transaction with
  | none =>
    rw [inside, Option.map_none] at own
    cases s with
    | begin =>
      cases kind
      exact ⟨by simp [Sql.Connection.run, own, committed],
        by simp [Sql.Connection.run, own, committed]⟩
    -- Outside of a transaction, there is none to be ended.
    | commit => simp [Sql.Connection.run, own] at succeeds
    | rollback => simp [Sql.Connection.run, own] at succeeds
    | _ => cases kind
  | some ws =>
    rw [inside, Option.map_some] at own
    cases s with
    | begin => simp [Sql.Connection.run, own] at succeeds
    | commit =>
      cases kind
      exact ⟨by simp [Sql.Connection.run, own], by simp [Sql.Connection.run, own]⟩
    | rollback =>
      cases kind
      exact ⟨by simp [Sql.Connection.run, own, committed], by simp [Sql.Connection.run, own]⟩
    | _ => cases kind

theorem Accounts.add (holds : t.Accounts d c.own)
    (succeeds : (c.execute d w.sql w.parameters).answer = .ok n) :
    (t.add w).Accounts (c.execute d w.sql w.parameters).committed
      (c.execute d w.sql w.parameters).connection.own := by
  cases prepared : Sql.prepare w.sql w.parameters with
  | error f =>
    rw [Sql.Connection.execute, prepared] at succeeds
    cases succeeds
  | ok s =>
    have runs (c : Sql.Connection) (d : Sql.Database) :
        c.execute d w.sql w.parameters = c.run d w.parameters s := by
      rw [Sql.Connection.execute, prepared]
    have same : w.bracket? = s.bracket? := by rw [Write.bracket?, prepared]
    cases kind : s.bracket? with
    | none =>
      refine holds.plain (same.trans kind) ?_
      rw [Write.effect, runs, runs]
      exact Sql.Connection.run_makes c d kind
    | some b =>
      rw [runs] at succeeds ⊢
      exact holds.bracket kind (same.trans kind) succeeds

end Standing

/-! ### The writes of a run -/

theorem Standing.ofApplied_append (place : Place) (before after : List Application) :
    ofApplied place (before ++ after) = after.foldl (next place) (ofApplied place before) :=
  List.foldl_append

section Apply

variable {fs fs' : Files} {place other : Place} {trouble : Option String}
  {connection connection' : Option Sql.Connection} {w : Write} {outcome : Outcome}

theorem Pool.there_apply
    (gives : Pool.apply fs place trouble connection w = (fs', connection', outcome))
    (there : (fs.find? other).isSome ∨ other = place ∧ ∃ n, outcome = .ok n) :
    (fs'.find? other).isSome := by
  rcases Pool.apply_cases gives with
    ⟨keeps, -, -, -, rfl⟩ | ⟨made, c, keeps, -, rfl, -, -⟩
  · rcases there with before | ⟨-, n, succeeds⟩
    · exact keeps.there other before
    · cases succeeds
  · rw [Files.find?_set]
    split
    · rfl
    · rename_i apart
      exact keeps.there other (there.resolve_right fun here => apart here.1)

theorem Pool.committed_apply_other
    (gives : Pool.apply fs place trouble connection w = (fs', connection', outcome))
    (apart : other ≠ place) : fs'.committed other = fs.committed other := by
  rcases Pool.apply_cases gives with ⟨keeps, -⟩ | ⟨made, c, keeps, -, rfl, -, -⟩
  · exact keeps.committed other
  · rw [Files.committed_set, if_neg apart]
    exact keeps.committed other

theorem Standing.Accounts.apply {t : Standing}
    (holds : t.Accounts (fs.committed place) (connection.getD {}).own)
    (gives : Pool.apply fs place trouble connection w = (fs', connection', outcome)) :
    (next place t ⟨place, w, trouble, outcome⟩).Accounts (fs'.committed place)
      (connection'.getD {}).own := by
  rw [next, if_pos rfl]
  cases outcome with
  | error fault =>
    obtain ⟨committed, own⟩ := Pool.apply_error gives
    rw [committed, own]
    exact holds
  | ok n =>
    rcases Pool.apply_cases gives with
      ⟨-, -, -, -, failed⟩ | ⟨made, c, -, connects, rfl, rfl, succeeds⟩
    · cases failed
    · rw [← connects.own] at holds
      rw [Files.committed_set, if_pos rfl]
      cases answer : (c.execute (fs.committed place) w.sql w.parameters).answer with
      | error f =>
        rw [answer] at succeeds
        cases succeeds
      | ok m => exact holds.add answer

end Apply

/-- Writes account for what they make of a store, and files that have been written to are there. -/
structure Store.AccountedBy (s : Store) (applied : List Application) : Prop where
  accounts : ∀ place, (Standing.ofApplied place applied).Accounts (s.files.committed place)
    ((s.connections place).getD {}).own
  there : ∀ a ∈ applied, ∀ n, a.outcome = .ok n → (s.files.find? a.place).isSome

theorem Store.AccountedBy.apply {s : Store} {applied : List Application} {a : Application}
    (holds : s.AccountedBy applied) (outcome : a.outcome = (s.apply a).2) :
    (s.apply a).1.AccountedBy (applied ++ [a]) := by
  cases gives : Pool.apply s.files a.place a.trouble (s.connections a.place) a.write with
  | mk files rest =>
    obtain ⟨connection, result⟩ := rest
    have same : result = a.outcome := by rw [outcome, Store.apply, gives]
    have files_eq : (s.apply a).1.files = files := by rw [Store.apply, gives]
    have connections (place : Place) : (s.apply a).1.connections place =
        if place = a.place then connection else s.connections place := by rw [Store.apply, gives]
    rw [same] at gives
    refine ⟨fun place => ?_, fun b member n succeeds => ?_⟩
    · rw [Standing.ofApplied_append, List.foldl_cons, List.foldl_nil, files_eq, connections]
      split
      · rename_i here
        subst here
        exact (holds.accounts a.place).apply gives
      · rename_i apart
        rw [Standing.next, if_neg (Ne.symm apart), Pool.committed_apply_other gives apart]
        exact holds.accounts place
    · rw [files_eq]
      refine Pool.there_apply gives ?_
      rcases List.mem_append.mp member with old | new
      · exact .inl (holds.there b old n succeeds)
      · rw [List.mem_singleton.mp new] at succeeds ⊢
        exact .inr ⟨rfl, n, succeeds⟩

namespace Standing

variable {t : Standing} {place : Place} {a : Application} {w v : Write} {n : Nat}

def inside (t : Standing) : List Write := t.transaction.getD []

/-- A write lasts, waits for the end of its transaction, or has been undone. -/
def Holds (t : Standing) (w : Write) : Prop := w ∈ t.lasting ∨ w ∈ t.inside ∨ w ∈ t.undone

theorem transaction_of_mem (member : w ∈ t.inside) : t.transaction = some t.inside := by
  unfold inside at *
  cases begun : t.transaction with
  | none =>
    rw [begun] at member
    cases member
  | some ws => rfl

theorem add_outside (plain : w.bracket? = none) (outside : t.transaction = none) :
    w ∈ (t.add w).lasting := by
  unfold add
  rw [plain, outside]
  exact List.mem_append_right _ (List.mem_singleton_self w)

theorem add_inside (plain : w.bracket? = none) (begun : t.transaction ≠ none) :
    w ∈ (t.add w).inside := by
  obtain ⟨ws, begun⟩ := Option.ne_none_iff_exists'.mp begun
  unfold add inside
  rw [plain, begun]
  exact List.mem_append_right _ (List.mem_singleton_self w)

theorem add_plain (plain : w.bracket? = none) : (t.add w).Holds w := by
  by_cases outside : t.transaction = none
  · exact .inl (add_outside plain outside)
  · exact .inr (.inl (add_inside plain outside))

theorem add_commits (commits : w.bracket? = some .commits) (member : v ∈ t.inside) :
    v ∈ (t.add w).lasting := by
  unfold add
  rw [commits, transaction_of_mem member]
  exact List.mem_append_right _ member

theorem add_rollsBack (rolls_back : w.bracket? = some .rollsBack) (member : v ∈ t.inside) :
    v ∈ (t.add w).undone := by
  unfold add
  rw [rolls_back, transaction_of_mem member]
  exact List.mem_append_right _ member

theorem lasting_add (t : Standing) (w : Write) : t.lasting <+: (t.add w).lasting := by
  unfold add
  split
  · exact List.prefix_append _ _
  · exact List.prefix_refl _
  · exact List.prefix_refl _
  · exact List.prefix_append _ _
  · exact List.prefix_refl _
  · exact List.prefix_refl _

theorem undone_add (t : Standing) (w : Write) : t.undone <+: (t.add w).undone := by
  unfold add
  split
  · exact List.prefix_refl _
  · exact List.prefix_refl _
  · exact List.prefix_refl _
  · exact List.prefix_refl _
  · exact List.prefix_append _ _
  · exact List.prefix_refl _

theorem Holds.add (holds : t.Holds v) (w : Write) : (t.add w).Holds v := by
  rcases holds with lasts | inside | undone
  · exact .inl ((t.lasting_add w).subset lasts)
  · -- The end of a transaction decides what becomes of its writes.
    cases kind : w.bracket? with
    | none =>
      refine .inr (.inl ?_)
      unfold Standing.add
      rw [kind, transaction_of_mem inside]
      exact List.mem_append_left _ inside
    | some b =>
      cases b with
      | begins =>
        unfold Standing.add
        rw [kind, transaction_of_mem inside]
        exact .inr (.inl inside)
      | commits => exact .inl (add_commits kind inside)
      | rollsBack => exact .inr (.inr (add_rollsBack kind inside))
  · exact .inr (.inr ((t.undone_add w).subset undone))

theorem foldl_keeps {P : Standing → Prop} (keeps : ∀ t w, P t → P (t.add w))
    (applied : List Application) (start : P t) : P (applied.foldl (next place) t) := by
  induction applied generalizing t with
  | nil => exact start
  | cons a rest ih =>
    refine ih ?_
    unfold next
    split
    · split
      · exact keeps t a.write start
      · exact start
    · exact start

section Applied

variable {applied : List Application} {i : Nat}

theorem ofApplied_succ (found : applied[i]? = some a) (succeeds : a.outcome = .ok n) :
    ofApplied a.place (applied.take (i + 1)) =
      (ofApplied a.place (applied.take i)).add a.write := by
  rw [List.take_add_one, found, Option.toList_some, ofApplied_append, List.foldl_cons,
    List.foldl_nil, next, if_pos rfl, succeeds]

/-- What holds with a write that succeeds, and is kept by others, holds in the end. -/
theorem ofApplied_keeps {P : Standing → Prop} (keeps : ∀ t w, P t → P (t.add w))
    (found : applied[i]? = some a) (succeeds : a.outcome = .ok n)
    (start : P ((ofApplied a.place (applied.take i)).add a.write)) :
    P (ofApplied a.place applied) := by
  -- The run is cut behind this write: what was before gives the start, what is behind keeps it.
  rw [← List.take_append_drop (i + 1) applied, ofApplied_append, ofApplied_succ found succeeds]
  exact foldl_keeps keeps _ start

/-- What becomes of a plain write that is applied in the `i`-th place: outside of a transaction it
lasts, and otherwise it is inside of one, whose end decides about it. -/
structure Fate (applied : List Application) (i : Nat) (place : Place) (w : Write) : Prop where
  holds : (ofApplied place applied).Holds w
  outside : (ofApplied place (applied.take i)).transaction = none →
    w ∈ (ofApplied place applied).lasting
  inside : (ofApplied place (applied.take i)).transaction ≠ none →
    w ∈ (ofApplied place (applied.take (i + 1))).inside
  ended : ∀ (j : Nat) (b : Application) (m : Nat), applied[j]? = some b → b.place = place →
    b.outcome = .ok m → w ∈ (ofApplied place (applied.take j)).inside →
    (b.write.bracket? = some .commits → w ∈ (ofApplied place applied).lasting) ∧
    (b.write.bracket? = some .rollsBack → w ∈ (ofApplied place applied).undone)

theorem fate_of_applied (found : applied[i]? = some a) (succeeds : a.outcome = .ok n)
    (plain : a.write.bracket? = none) : Fate applied i a.place a.write := by
  have lasts (v : Write) (t : Standing) (u : Write) (before : v ∈ t.lasting) :
      v ∈ (t.add u).lasting := (t.lasting_add u).subset before
  have stays_undone (v : Write) (t : Standing) (u : Write) (before : v ∈ t.undone) :
      v ∈ (t.add u).undone := (t.undone_add u).subset before
  refine ⟨?_, fun outside => ?_, fun begun => ?_,
    fun j b m at_j same ends inside => ⟨fun commits => ?_, fun rolls_back => ?_⟩⟩
  · exact ofApplied_keeps (P := (·.Holds a.write)) (fun t u before => before.add u) found succeeds
      (add_plain plain)
  · exact ofApplied_keeps (lasts a.write) found succeeds (add_outside plain outside)
  · rw [ofApplied_succ found succeeds]
    exact add_inside plain begun
  · rw [← same] at inside ⊢
    exact ofApplied_keeps (lasts a.write) at_j ends (add_commits commits inside)
  · rw [← same] at inside ⊢
    exact ofApplied_keeps (stays_undone a.write) at_j ends (add_rollsBack rolls_back inside)

end Applied

end Standing

namespace Ledger

variable {s : Ledger} {place : Place}

def standing (s : Ledger) (place : Place) : Standing := Standing.ofApplied place s.applied

theorem Replayed.accounted (holds : s.Replayed) :
    (Store.replay s.applied).AccountedBy s.applied := by
  have prefixes (i : Nat) :
      (Store.replay (s.applied.take i)).AccountedBy (s.applied.take i) := by
    induction i with
    | zero =>
      rw [List.take_zero]
      exact ⟨fun _ => ⟨rfl, rfl⟩, by simp⟩
    | succ i ih =>
      rw [List.take_add_one]
      cases found : s.applied[i]? with
      | none => simpa using ih
      | some a =>
        rw [Option.toList_some, Store.replay_append]
        exact ih.apply (holds.outcomes i a found)
  have all := prefixes s.applied.length
  rwa [List.take_length] at all

theorem applied_grows (s : Ledger) (events : List Event) :
    s.applied <+: (events.foldl step s).applied :=
  foldl_keeps (P := fun t => s.applied <+: t.applied)
    (fun t e t' changes before => before.trans (by cases changes <;> simp)) events
    (List.prefix_refl _)

theorem lasting_grows (s : Ledger) (events : List Event) (place : Place) :
    (s.standing place).lasting <+: ((events.foldl step s).standing place).lasting := by
  obtain ⟨rest, grown⟩ := applied_grows s events
  rw [standing, standing, ← grown, Standing.ofApplied_append]
  exact Standing.foldl_keeps (P := fun t => _ <+: t.lasting)
    (fun t w before => before.trans (t.lasting_add w)) rest (List.prefix_refl _)

/-- A query gives the rows of the database that the lasting writes make. -/
theorem query_eq (holds : s.Faithful) {a : Application} (applied : a ∈ s.applied) {n : Nat}
    (succeeds : a.outcome = .ok n) {c : Connection} (is_open : c.isOpen = true)
    (at_place : c.place = a.place) (sql : String) (parameters : List Sql.Value) :
    s.pool.query c sql parameters = (Sql.query (Write.effects (s.standing a.place).lasting) sql
      parameters).mapError Fault.ofSql := by
  have accounted := holds.store.accounted
  have there := accounted.there a applied n succeeds
  rw [← holds.store.files] at there
  obtain ⟨d, found⟩ := Option.isSome_iff_exists.mp there
  have committed := (accounted.accounts a.place).committed
  rw [← holds.store.files, Files.committed, found, Option.getD_some] at committed
  rw [Pool.query, is_open, at_place, found, committed]
  rfl

/-- The handle on a write shows an outcome, waited for or not. -/
def Reports (s : Ledger) (w : Write) (o : Outcome) : Prop :=
  ∃ h, s.handles[w.ticket]? = some h ∧ ((h.check (s.pool.reply w.ticket)).1 = some o ∨
    ∃ h', h.wait (s.pool.reply w.ticket) = some (o, h'))

theorem Reports.applied (holds : s.Faithful) {w : Write} {o : Outcome} (reports : s.Reports w o)
    (member : (place, w) ∈ s.accepted) :
    ∃ (i : Nat) (a : Application), s.applied[i]? = some a ∧ a.place = place ∧ a.write = w ∧
      a.outcome = o := by
  obtain ⟨h, found, shows⟩ := reports
  obtain ⟨h', found', iff⟩ := handle_shows holds member
  rw [found] at found'
  cases found'
  have given : s.pool.reply w.ticket = .given o := shows.elim (iff o).1.mp (iff o).2.mp
  rcases answer_of_accepted holds.order holds.answers member with awaited | ⟨a, applied, rest⟩
  · rw [given] at awaited
    cases awaited
  · obtain ⟨at_place, write, its_own⟩ := rest
    rw [given] at its_own
    obtain ⟨i, turn⟩ := List.mem_iff_getElem?.mp applied
    exact ⟨i, a, turn, at_place, write, (Reply.given.inj its_own).symm⟩

/-- A write whose handle has reported success lasts if no transaction was open when it was applied,
and from the `COMMIT` of its transaction on; a `ROLLBACK` undoes it. Every query sees exactly what
the lasting writes have made of the file, one after the other, to which a run only adds. -/
theorem acknowledged_writes_last (events more : List Event) :
    let s := run events
    let later := run (events ++ more)
    ∀ place w n, (place, w) ∈ s.accepted → s.Reports w (.ok n) →
      (∃ (i : Nat) (a : Application), s.applied[i]? = some a ∧ a.place = place ∧ a.write = w ∧
        a.outcome = .ok n ∧ (w.bracket? = none → Standing.Fate later.applied i place w)) ∧
      (s.standing place).lasting <+: (later.standing place).lasting ∧
      ∀ c sql parameters, c.place = place → c.isOpen = true →
        later.pool.query c sql parameters =
          (Sql.query (Write.effects (later.standing place).lasting) sql parameters).mapError
            Fault.ofSql := by
  intro s later place w n member reports
  have holds : s.Faithful := faithful_run events
  have continued : later = more.foldl step s := run_append events more
  obtain ⟨i, a, turn, rfl, rfl, succeeds⟩ := reports.applied holds member
  have turn_later : later.applied[i]? = some a := by
    obtain ⟨rest, grown⟩ := applied_grows s more
    rw [continued, ← grown, List.getElem?_append_left (List.getElem?_eq_some_iff.mp turn).1, turn]
  refine ⟨⟨i, a, turn, rfl, rfl, succeeds, Standing.fate_of_applied turn_later succeeds⟩, ?_,
    fun c sql parameters at_place is_open => ?_⟩
  · rw [continued]
    exact lasting_grows s more a.place
  · exact query_eq (faithful_run _) (List.mem_of_getElem? turn_later) succeeds is_open at_place
      sql parameters

/-- Two connections to one file: the first one begins a transaction, the second one inserts a row
into a table, and the first one commits. A `DELETE` in a transaction that is open does not show. -/
theorem committed_row_stays :
    let events : List Event := [.connect "a.db", .connect "a.db", .exec 0 "CREATE TABLE t (n)" [],
      .exec 0 "BEGIN" [], .exec 1 "INSERT INTO t VALUES (1)" [], .exec 0 "COMMIT" []] ++
      List.replicate 16 (.advance ["a.db"] none)
    let more : List Event := [.exec 0 "BEGIN" [], .exec 0 "DELETE FROM t" []] ++
      List.replicate 8 (.advance ["a.db"] none)
    (run (events ++ more)).pool.query { place := ["a.db"] } "SELECT n FROM t" [] =
      .ok [[("n", .int 1)]] := by
  intro events more
  have accepted : (run events).acceptedAt ["a.db"] = [⟨0, "CREATE TABLE t (n)", []⟩,
      ⟨1, "BEGIN", []⟩, ⟨2, "INSERT INTO t VALUES (1)", []⟩, ⟨3, "COMMIT", []⟩] := rfl
  have member : (["a.db"], ⟨2, "INSERT INTO t VALUES (1)", []⟩) ∈ (run events).accepted :=
    mem_acceptedAt.mp (by rw [accepted]; simp)
  have reports : (run events).Reports ⟨2, "INSERT INTO t VALUES (1)", []⟩ (.ok 1) :=
    ⟨{}, rfl, .inl (by decide +kernel)⟩
  obtain ⟨-, -, query⟩ := acknowledged_writes_last events more ["a.db"] _ 1 member reports
  rw [query { place := ["a.db"] } "SELECT n FROM t" [] rfl rfl]
  decide +kernel

/-- The second of two connections to one file inserts a row while the first one has begun a
transaction. Its handle reports success, but the row is not seen, and it is gone with a `ROLLBACK`
of the first one. -/
theorem acknowledged_row_unseen :
    let events : List Event := [.connect "a.db", .connect "a.db", .exec 0 "CREATE TABLE t (n)" [],
      .exec 0 "BEGIN" [], .exec 1 "INSERT INTO t VALUES (1)" []] ++
      List.replicate 12 (.advance ["a.db"] none)
    let more : List Event := .exec 0 "ROLLBACK" [] :: List.replicate 4 (.advance ["a.db"] none)
    (run events).Reports ⟨2, "INSERT INTO t VALUES (1)", []⟩ (.ok 1) ∧
      (run events).pool.query { place := ["a.db"] } "SELECT n FROM t" [] = .ok [] ∧
      (run (events ++ more)).pool.query { place := ["a.db"] } "SELECT n FROM t" [] = .ok [] := by
  exact ⟨⟨{}, rfl, .inl (by decide +kernel)⟩, by decide +kernel, by decide +kernel⟩

end Ledger

end Storage

end ScriptGate
