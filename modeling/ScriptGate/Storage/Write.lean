import ScriptGate.Sql.Connection

/-!
# Queued writes

The one who queues a write gets a handle on its outcome. The writer answers it once, or goes away
and leaves it without an answer. A handle that has shown an outcome keeps it.
-/

namespace ScriptGate.Storage

inductive Fault where
  | invalidPath (path : String)
  | database (message : String)
  | writerStopped
  | closed
  deriving DecidableEq, Repr

def Fault.message : Fault → String
  | .invalidPath path => "invalid storage path: " ++ path
  | .database message => "database error: " ++ message
  | .writerStopped => "storage writer stopped"
  | .closed => "connection closed"

def Fault.ofSql (f : Sql.Fault) : Fault := .database f.message

/-- How many rows a write has changed, or why it failed. -/
abbrev Outcome := Except Fault Nat

/-- What has come of the answer to a write. -/
inductive Reply where
  /-- The writer still has the write. -/
  | awaited
  | given (outcome : Outcome)
  /-- The writer has gone away without an answer. -/
  | dropped

structure Pending where
  /-- Whether the answer may still be taken. -/
  listening : Bool := true
  outcome : Option Outcome := none

namespace Pending

/-- The handle after it has shown an outcome for the first time. -/
def settled (o : Outcome) : Pending := ⟨false, some o⟩

/-- The outcome; nothing while it has to be waited for. -/
def wait (p : Pending) (reply : Reply) : Option (Outcome × Pending) :=
  match p.outcome with
  | some o => some (o, p)
  | none =>
    if p.listening then
      match reply with
      | .awaited => none
      | .given o => some (o, settled o)
      | .dropped => some (.error .writerStopped, settled (.error .writerStopped))
    else some (.error .writerStopped, settled (.error .writerStopped))

def check (p : Pending) (reply : Reply) : Option Outcome × Pending :=
  match p.outcome with
  | some o => (some o, p)
  | none =>
    if p.listening then
      match reply with
      | .awaited => (none, p)
      | .given o => (some o, settled o)
      | .dropped => (some (.error .writerStopped), settled (.error .writerStopped))
    else (none, p)

def isDone (p : Pending) (reply : Reply) : Bool × Pending :=
  let (outcome, p) := p.check reply
  (outcome.isSome, p)

end Pending

end ScriptGate.Storage
