import ScriptGate.Net.Address
import ScriptGate.Text.Blank
import ScriptGate.Text.Split
import ScriptGate.Text.Utf8

/-!
# Callers

Who makes a call: its session, its address and its header lines. The values of all lines of one name
count as one, in order of arrival; a value with a byte that is not visible counts for nothing.
-/

namespace ScriptGate

/-- A header line. Names are compared without regard to the case of ASCII letters. -/
structure HeaderLine where
  name : String
  value : Bytes
  deriving DecidableEq

structure Caller where
  session : String
  minted : Bool := false
  peer : Option Net.SocketAddress := none
  headers : List HeaderLine := []
  deriving DecidableEq

namespace Caller

def lower (name : String) : String := name.map Char.toLower

/-- The visible values of the lines of a name, in order. -/
def values (c : Caller) (name : String) : List String :=
  (c.headers.filter fun h => lower h.name = lower name).filterMap fun h => Utf8.visible? h.value

/-- The value of a header, if any line of that name has a visible one. -/
def header (c : Caller) (name : String) : Option String :=
  match c.values name with
  | [] => none
  | values => some (Text.join ", " values)

/-- The header names, lower-cased and without repetition. -/
def headerNames (c : Caller) : List String := (c.headers.map fun h => lower h.name).eraseDups

/-- All headers with a value, in order of their names. -/
def headerPairs (c : Caller) : List (String × String) :=
  (c.headerNames.filterMap fun n => (c.header n).map (n, ·)).mergeSort fun a b => decide (a.1 ≤ b.1)

/-- The address of the peer, empty when unknown. -/
def address (c : Caller) : String := (c.peer.map (·.text)).getD ""

/-- The first hop that is not blank in a list with commas. -/
def firstHop (chain : String) : Option String :=
  ((Text.split ',' chain).map Text.trim).find? (· ≠ "")

/-- The address that the call comes from: the first forwarded hop, else the host of the peer. -/
def initiator (c : Caller) : String :=
  match (c.header "x-forwarded-for").bind firstHop with
  | some hop => hop
  | none => (c.peer.map (·.host.text)).getD ""

def initiatorHeaders (c : Caller) : List (String × String) := [
  ("X-Initiator-IP", c.initiator),
  ("X-Session-UUID", c.session),
  ("X-Initiator-Host", (c.header "host").getD ""),
  ("X-Initiator-User-Agent", (c.header "user-agent").getD ""),
  ("X-Initiator-Referer", (c.header "referer").getD "")]

end Caller

end ScriptGate
