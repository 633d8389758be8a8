import ScriptGate.Gateway.Plan
import ScriptGate.Session.Registry

/-!
# Exchanges

An exchange answers one body. It is ready for its reply once every slot that is awaited has ended;
notifications neither hold the reply up nor end with it.
-/

namespace ScriptGate.Gateway

inductive Progress where
  | waiting
  | running
  | ended (ending : Ending)
  deriving DecidableEq

def Progress.ending? : Progress → Option Ending
  | .ended ending => some ending
  | .waiting | .running => none

inductive Stage where
  | underway
  | replied (reply : Reply)
  /-- It came to an abrupt end and there is no reply. -/
  | aborted
  deriving DecidableEq

/-- The answering of a body. -/
structure Exchange where
  caller : Caller
  /-- What frees the session, if the exchange was given it. -/
  guard : Option Session.Guard
  plan : Plan
  /-- How far each slot is, in order. -/
  progress : List Progress
  stage : Stage
  deriving DecidableEq

namespace Exchange

def admitted (caller : Caller) (plan : Plan) : Exchange where
  caller
  guard := some ⟨caller.session⟩
  plan
  progress := plan.slots.map fun _ => .waiting
  stage := .underway

def busy (caller : Caller) : Exchange where
  caller
  guard := none
  plan := .refused Http.ok .sessionBusy
  progress := []
  stage := .underway

def aborted (caller : Caller) : Exchange where
  caller
  guard := none
  plan := .refused Http.internalServerError .internalError
  progress := []
  stage := .aborted

/-- Whether the exchange has the session of this id to itself. -/
def holds (x : Exchange) (id : String) : Bool := x.stage = .underway && x.guard = some ⟨id⟩

/-- How far a slot is; nothing where there is no such slot. -/
def progress? (x : Exchange) (i : Nat) : Option Progress := x.progress[i]?

def ending? (x : Exchange) (i : Nat) : Option Ending := (x.progress? i).bind Progress.ending?

def request? (x : Exchange) (i : Nat) : Option Rpc.Request := x.plan.slots[i]?.bind Slot.request?

def isRunning (x : Exchange) (i : Nat) : Bool := x.progress? i = some .running

/-- Whether every awaited slot has ended. -/
def isReady (x : Exchange) : Bool :=
  x.plan.slots.zipIdx.all fun (slot, i) => !slot.isAwaited || (x.ending? i).isSome

def start (x : Exchange) (i : Nat) : Exchange :=
  if (x.request? i).isSome ∧ x.progress? i = some .waiting then
    { x with progress := x.progress.set i .running }
  else x

def finish (x : Exchange) (i : Nat) (ending : Ending) : Exchange :=
  if x.isRunning i then { x with progress := x.progress.set i (.ended ending) } else x

/-- The session that is new to the caller. -/
def newSession (x : Exchange) : Option String :=
  if x.caller.minted then some x.caller.session else none

def reply (x : Exchange) (node : String) (salt : Nat → String) : Reply :=
  (x.plan.reply x.ending?).stamp node x.newSession salt

end Exchange

end ScriptGate.Gateway
