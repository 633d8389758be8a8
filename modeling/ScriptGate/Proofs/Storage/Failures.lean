import ScriptGate.Proofs.Storage.Applying

/-!
# Writes that fail

A write that fails, be it that its file cannot be opened or that its statement is refused, changes
no database: neither what is committed in a file nor what a transaction has done so far.
-/

namespace ScriptGate

namespace Sql.Connection

variable {c : Connection} {committed : Database} {parameters : List Value}

theorem keep_answer (d : Database) : (c.keep committed d).answer = .ok c.changes := by
  unfold keep
  split <;> rfl

/-- An outcome that is a failure leaves what is committed and a transaction as they are. -/
def KeptOnFailure (c : Connection) (committed : Database) (o : Sql.Outcome) : Prop :=
  ∀ f, o.answer = .error f → o.committed = committed ∧ o.connection.own = c.own

theorem kept_of_own {d : Connection} (own : d.own = c.own) (answer : Except Fault Nat) :
    KeptOnFailure c committed ⟨committed, d, answer⟩ := fun _ _ => ⟨rfl, own⟩

theorem kept_of_ok {o : Sql.Outcome} {n : Nat} (succeeds : o.answer = .ok n) :
    KeptOnFailure c committed o := by
  intro f failed
  rw [succeeds] at failed
  cases failed

theorem run_keptOnFailure (s : Statement) :
    KeptOnFailure c committed (c.run committed parameters s) := by
  unfold run
  split
  · split
    · exact kept_of_own rfl _
    · exact kept_of_ok rfl
  · split
    · exact kept_of_ok rfl
    · exact kept_of_own rfl _
  · split
    · exact kept_of_ok rfl
    · exact kept_of_own rfl _
  · simp only
    split
    · exact kept_of_own rfl _
    · exact kept_of_own rfl _
    · split
      · exact kept_of_own rfl _
      · exact kept_of_own rfl _
      · exact kept_of_ok (keep_answer _)
      · split
        · exact kept_of_own rfl _
        · exact kept_of_ok (keep_answer _)
        · exact kept_of_own rfl _

theorem execute_keptOnFailure (sql : String) :
    KeptOnFailure c committed (c.execute committed sql parameters) := by
  unfold execute
  split
  · exact kept_of_own rfl _
  · exact run_keptOnFailure _

end Sql.Connection

namespace Storage

/-- What a writer works on: its transaction, if it is inside one, and what is committed in its file
if not. -/
def Store.current (s : Store) (place : Place) : Sql.Database :=
  ((s.connections place).getD {}).current (s.files.committed place)

/-- A write that fails leaves all files and the transaction of its writer as they are. -/
theorem Pool.apply_error {fs fs' : Files} {place : Place} {trouble : Option String}
    {connection connection' : Option Sql.Connection} {w : Write} {fault : Fault}
    (fails : Pool.apply fs place trouble connection w = (fs', connection', .error fault)) :
    (∀ other, fs'.committed other = fs.committed other) ∧
      (connection'.getD {}).own = (connection.getD {}).own := by
  rcases Pool.apply_cases fails with
    ⟨keeps, -, rfl, rfl, -⟩ | ⟨made, c, keeps, connects, rfl, rfl, failed⟩
  · exact ⟨keeps.committed, rfl⟩
  · cases answer : (c.execute (fs.committed place) w.sql w.parameters).answer with
    | ok n =>
      rw [answer] at failed
      cases failed
    | error f =>
      obtain ⟨same, own'⟩ := Sql.Connection.execute_keptOnFailure w.sql f answer
      refine ⟨fun other => ?_, own'.trans connects.own⟩
      rw [same, Files.committed_set]
      split
      · rename_i here
        rw [here]
      · exact keeps.committed other

/-- A write that fails changes nothing that is committed, and nothing that a writer works on. -/
theorem Store.apply_error {s : Store} {a : Application} {fault : Fault}
    (fails : (s.apply a).2 = .error fault) (other : Place) :
    (s.apply a).1.files.committed other = s.files.committed other ∧
      (s.apply a).1.current other = s.current other := by
  unfold Store.apply at *
  cases result : Pool.apply s.files a.place a.trouble (s.connections a.place) a.write with
  | mk files rest =>
    obtain ⟨connection, outcome⟩ := rest
    simp only [result] at fails ⊢
    subst fails
    obtain ⟨same, own⟩ := Pool.apply_error result
    refine ⟨same other, ?_⟩
    simp only [Store.current, Sql.Connection.current, same]
    split
    · rename_i here
      rw [own, here]
    · rfl

end Storage

end ScriptGate
