import ScriptGate.Storage.Files
import ScriptGate.Storage.Place
import ScriptGate.Storage.Write

/-!
# The storage pool

Every database file that has been connected to has one lane: a queue of writes, a writer that takes
them one by one, and a lock. The writer applies a statement while it holds the lock alone, and sends
the answer after it has given the lock back; a query shares the lock with other queries. Closing a
connection leaves the lane as it is.
-/

namespace ScriptGate.Storage

/-- How many writes a lane keeps waiting at most. -/
def capacity : Nat := 100

inductive Lock where
  | shared (readers : Nat)
  | exclusive
  deriving DecidableEq

def Lock.free : Lock := .shared 0

def Lock.share? : Lock → Option Lock
  | .shared n => some (.shared (n + 1))
  | .exclusive => none

def Lock.unshare : Lock → Lock
  | .shared n => .shared (n - 1)
  | .exclusive => .exclusive

def Lock.exclude? : Lock → Option Lock
  | .shared 0 => some .exclusive
  | _ => none

/-- A write: the number under which its answer is kept, and its statement. -/
structure Write where
  ticket : Nat
  sql : String
  parameters : List Sql.Value

inductive Writer where
  | idle
  /-- It has taken a write and waits for the lock. -/
  | taken (w : Write)
  /-- It holds the lock. -/
  | locked (w : Write)
  /-- It has applied the write and given the lock back; the answer is still to be sent. -/
  | applied (w : Write) (outcome : Outcome)

/-- How many steps a writer has to make until it is idle. -/
def Writer.left : Writer → Nat
  | .idle => 0
  | .taken _ => 3
  | .locked _ => 2
  | .applied _ _ => 1

structure Lane where
  lock : Lock := .free
  waiting : List Write := []
  writer : Writer := .idle
  /-- The connection of the writer, from the first write on. -/
  connection : Option Sql.Connection := none

/-- How many steps its writer has to make until nothing is left to do. -/
def Lane.work (l : Lane) : Nat := 4 * l.waiting.length + l.writer.left

/-- The lanes by their files, the files, and the answers to all writes. -/
structure Pool where
  files : Files := {}
  lanes : List (Place × Lane) := []
  replies : Array Reply := #[]

structure Connection where
  place : Place
  isOpen : Bool := true

def Connection.close (c : Connection) : Connection := { c with isOpen := false }

inductive Submission where
  | accepted (ticket : Nat) (pool : Pool)
  /-- The lane is full: the one who hands it in has to wait. -/
  | full
  | refused (f : Fault)

namespace Pool

def lane? (p : Pool) (place : Place) : Option Lane := p.lanes.lookup place

def setLane (p : Pool) (place : Place) (l : Lane) : Pool :=
  { p with lanes := p.lanes.map fun e => if e.1 = place then (place, l) else e }

def reply (p : Pool) (ticket : Nat) : Reply := p.replies.getD ticket .dropped

/-- Connects to the file of a path, with a lane of its own where it has none yet. -/
def connect (p : Pool) (path : String) : Except Fault (Connection × Pool) :=
  match place? path with
  | none => .error (.invalidPath path)
  | some place =>
    match p.lane? place with
    | some _ => .ok ({ place }, p)
    | none => .ok ({ place }, { p with lanes := p.lanes ++ [(place, {})] })

def submit (p : Pool) (c : Connection) (sql : String) (parameters : List Sql.Value) : Submission :=
  if !c.isOpen then .refused .closed
  else
    match p.lane? c.place with
    | none => .refused .writerStopped
    | some l =>
      if capacity ≤ l.waiting.length then .full
      else
        let ticket := p.replies.size
        let p := p.setLane c.place { l with waiting := l.waiting ++ [⟨ticket, sql, parameters⟩] }
        .accepted ticket { p with replies := p.replies.push .awaited }

/-! ### The writer -/

/-- What is said of a file that cannot be opened. -/
def unopenable : String := "unable to open database file"

/-- A writer opens a file, which makes the directories above it and then the file where there is
none. What keeps it from the latter, apart from what is in the data directory, is its `trouble`. -/
def openFile (fs : Files) (place : Place) : (trouble : Option String) →
    Files × Except Fault Sql.Connection
  | some message => ((fs.withDirectories place).1, .error (.database message))
  | none =>
    let (fs, isThere) := fs.touch place
    (fs, if isThere then .ok {} else .error (.database unopenable))

/-- What applying a statement to the file at a place gives: the files, the connection of the writer,
and the outcome. A writer without a connection opens the file first. -/
def apply (fs : Files) (place : Place) (trouble : Option String)
    (connection : Option Sql.Connection) (w : Write) :
    Files × Option Sql.Connection × Outcome :=
  let (fs, opened) := match connection with
    | some c => (fs, Except.ok c)
    | none => openFile fs place trouble
  match opened with
  | .error fault => (fs, none, .error fault)
  | .ok c =>
    let o := c.execute ((fs.find? place).getD {}) w.sql w.parameters
    (fs.set place o.committed, some o.connection, o.answer.mapError Fault.ofSql)

/-- The next step of the writer of a file: it takes a write, takes the lock, applies the write and
gives the lock back, sends the answer. It waits where there is no write or the lock is not free. -/
def advance (p : Pool) (place : Place) (trouble : Option String) : Option Pool := do
  let l ← p.lane? place
  match l.writer with
  | .idle =>
    match l.waiting with
    | [] => none
    | w :: rest => return p.setLane place { l with waiting := rest, writer := .taken w }
  | .taken w =>
    let lock ← l.lock.exclude?
    return p.setLane place { l with lock, writer := .locked w }
  | .locked w =>
    let (files, connection, outcome) := apply p.files place trouble l.connection w
    let p := p.setLane place { l with lock := .free, writer := .applied w outcome, connection }
    return { p with files }
  | .applied w outcome =>
    let p := p.setLane place { l with writer := .idle }
    return { p with replies := p.replies.setIfInBounds w.ticket (.given outcome) }

def serve (p : Pool) (place : Place) : (n : Nat) → Pool
  | 0 => p
  | n + 1 =>
    match p.advance place none with
    | some p => serve p place n
    | none => p

/-- All writers apply what is waiting. -/
def settle (p : Pool) : Pool :=
  p.lanes.foldl (fun p e => p.serve e.1 e.2.work) p

/-! ### Queries -/

def beginQuery (p : Pool) (place : Place) : Option Pool := do
  let l ← p.lane? place
  return p.setLane place { l with lock := ← l.lock.share? }

def endQuery (p : Pool) (place : Place) : Option Pool := do
  let l ← p.lane? place
  return p.setLane place { l with lock := l.lock.unshare }

def query (p : Pool) (c : Connection) (sql : String) (parameters : List Sql.Value) :
    Except Fault (List Sql.Record) :=
  if !c.isOpen then .error .closed
  else
    match p.files.find? c.place with
    | none => .error (.database unopenable)
    | some d => (Sql.query d sql parameters).mapError Fault.ofSql

def writers (p : Pool) : Nat := p.lanes.length

def locks (p : Pool) : Nat := p.lanes.length

end Pool

end ScriptGate.Storage
