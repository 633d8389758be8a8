import ScriptGate.Net.Address
import ScriptGate.Text.Blank
import ScriptGate.Text.Quoted
import ScriptGate.Time

/-!
# Configuration

The settings of a gateway with their defaults, and what they have to satisfy before it starts. The
first setting at fault, in the order of the settings, is the one that is reported.
-/

namespace ScriptGate

namespace Config

def leastCost : Nat := 4

def greatestCost : Nat := 31

/-- The cost of a password hash where none is asked for and the bounds permit it. -/
def usualCost : Nat := 10

end Config

/-- The settings of a gateway. The node id has no default: each gateway draws its own. -/
structure Config where
  bind : Net.SocketAddress := ⟨.v4 [0, 0, 0, 0], 0, 8080⟩
  route : String := "/api/v1/rpc"
  scriptRoot : String := "./com"
  dataRoot : String := "./data"
  nodeId : String
  sessionTtl : Time.Span := Time.Span.ofSeconds 1800
  sweepInterval : Time.Span := Time.Span.ofSeconds 5
  headerTimeout : Time.Span := Time.Span.ofSeconds 10
  requestTimeout : Time.Span := Time.Span.ofSeconds 30
  maxBody : Nat := 10 * 1024 * 1024
  minCost : Nat := Config.leastCost
  maxCost : Nat := Config.greatestCost

namespace Config

inductive Fault where
  | route (given : String)
  | nodeId
  | sessionTtl
  | sweepInterval
  | timeout
  | maxBody
  | cost (min max : Nat)
  deriving DecidableEq, Repr

def Fault.message : Fault → String
  | .route given => "route must start with '/' (got " ++ Text.Quoted.encode given ++ ")"
  | .nodeId => "node id must not be empty"
  | .sessionTtl => "session TTL must be greater than zero"
  | .sweepInterval => "sweep interval must be greater than zero"
  | .timeout => "timeouts must be greater than zero"
  | .maxBody => "max body size must be greater than zero"
  | .cost min max =>
    "bcrypt cost bounds must satisfy " ++ toString leastCost ++ " <= min <= max <= " ++
      toString greatestCost ++ " (got " ++ toString min ++ "..=" ++ toString max ++ ")"

def validate (c : Config) : Except Fault Unit :=
  if !c.route.startsWith "/" then .error (.route c.route)
  else if Text.isAllBlank c.nodeId then .error .nodeId
  else if c.sessionTtl.isZero then .error .sessionTtl
  else if c.sweepInterval.isZero then .error .sweepInterval
  else if c.headerTimeout.isZero || c.requestTimeout.isZero then .error .timeout
  else if c.maxBody = 0 then .error .maxBody
  else if c.minCost < leastCost ∨ greatestCost < c.maxCost ∨ c.maxCost < c.minCost then
    .error (.cost c.minCost c.maxCost)
  else .ok ()

end Config

end ScriptGate
