import ScriptGate.Cli.Outcome
import ScriptGate.Config

/-!
# The command that serves

Its options are the settings of a gateway. The node id comes from its option, else from the
environment, else it is drawn; an empty one counts for nothing.
-/

namespace ScriptGate.Cli.Serve

def form : Form where
  path := "luagate serve"
  about := "Arguments for running the gateway. run the gateway"
  settings := [
    { short := some 'b', long := "bind", about := "address to bind the HTTP server to" },
    { long := "route", about := "HTTP path that accepts JSON-RPC requests" },
    { short := some 'c', long := "com-dir", about := "root directory of the command scripts" },
    { long := "data-dir", about := "directory that storage paths are resolved under" },
    { long := "session-ttl-secs", kind := some (.number 64),
      about := "seconds before an unreleased session is evicted" },
    { long := "sweep-interval-secs", kind := some (.number 64),
      about := "seconds between expired-session sweeps" },
    { long := "node-id",
      about := "identity stamped on every response Falls back to the LUAGATE_NODE_ID " ++
        "environment variable, then to a fresh UUID." },
    { long := "header-read-timeout-secs", kind := some (.number 64),
      about := "seconds allowed for a client to send request headers" },
    { long := "http-timeout-secs", kind := some (.number 64),
      about := "timeout in seconds for outbound requests made by scripts" },
    { long := "bcrypt-max-cost", kind := some (.number 32),
      about := "highest bcrypt cost scripts may request" }]

def nodeVariable : String := "LUAGATE_NODE_ID"

def seconds (g : Given) (long : String) (default : Nat) : Time.Span :=
  .ofSeconds (UInt64.ofNat (g.number 64 long default))

def config (g : Given) (nodeVariable : Option String) (drawn : String) : Except Failure Config :=
  let bind := g.value "bind" "0.0.0.0:8080"
  match Net.SocketAddress.ofText? bind with
  | none => .error ⟨"Invalid bind address " ++ bind ++ ": invalid socket address syntax", []⟩
  | some bind =>
    let config : Config := {
      bind
      route := g.value "route" "/api/v1/rpc"
      scriptRoot := g.value "com-dir" "./com"
      dataRoot := g.value "data-dir" "./data"
      nodeId := (((g.values.lookup "node-id").or nodeVariable).filter (· ≠ "")).getD drawn
      sessionTtl := seconds g "session-ttl-secs" 1800
      sweepInterval := seconds g "sweep-interval-secs" 5
      headerTimeout := seconds g "header-read-timeout-secs" 10
      requestTimeout := seconds g "http-timeout-secs" 30
      maxCost := g.number 32 "bcrypt-max-cost" Config.greatestCost }
    match config.validate with
    | .ok () => .ok config
    | .error fault => .error ⟨fault.message, []⟩

def bindFailure (address : Net.SocketAddress) (reason : String) : Failure where
  message := "Transport error: Failed to bind to " ++ address.text ++ ": " ++ reason

end ScriptGate.Cli.Serve
