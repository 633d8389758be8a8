import ScriptGate.Cli
import ScriptGate.Http.Wire
import ScriptGate.Uuid
import Std.Async.DNS
import Std.Async.TCP
import Std.Time.DateTime

/-!
# The program

It carries out the task of its command line. The server answers one connection after the other, and
its storage and sessions live as long as it runs. It gives its scripts no way to other servers.
-/

open ScriptGate
open Std.Async

namespace ScriptGate.Program

/-! ### The environment -/

def freshId : IO String := do return Uuid.text (← IO.getRandomBytes 16).data.toList

def now : IO Time.Instant := do
  let nanos ← IO.monoNanosNow
  have h : nanos % Time.nanosPerSecond < Time.nanosPerSecond := Nat.mod_lt _ (by decide)
  match Time.Instant.ofParts? (nanos / Time.nanosPerSecond) (nanos % Time.nanosPerSecond) h with
  | some t => return t
  | none => throw (IO.userError "the clock is out of range")

def directoriesTo (p : Place) : List (Place × Entry) :=
  (List.range p.length).map fun i => (p.take (i + 1), .directory)

/-- The entries from a directory entry downwards. -/
partial def entriesFrom (d : IO.FS.DirEntry) : IO (List (Place × Entry)) := do
  let place := FileTree.names d.path.toString
  match (← d.path.symlinkMetadata).type with
  | .file => return [(place, .file (← IO.FS.readBinFile d.path).data.toList)]
  | .dir =>
    let below ← (← d.path.readDir).mapM entriesFrom
    return (place, .directory) :: below.toList.flatten
  | .symlink =>
    let target ← try pure (← IO.FS.realPath d.path).toString catch _ => pure ""
    return [(place, .link target)]
  | .other => return []

/-- All that stands below a directory, at its places in the file system. -/
def treeAt (root : String) : IO FileTree := do
  try
    let root ← IO.FS.realPath root
    let below ← (← root.readDir).mapM entriesFrom
    return ⟨directoriesTo (FileTree.names root.toString) ++ below.toList.flatten⟩
  catch _ => return {}

/-! ### Connections -/

def networkAddress (a : Net.SocketAddress) : Std.Net.SocketAddress :=
  let port := UInt16.ofNat a.port
  match a.host with
  | .v4 octets =>
    let octet (i : Nat) := UInt8.ofNat (octets.getD i 0)
    .v4 ⟨.ofParts (octet 0) (octet 1) (octet 2) (octet 3), port⟩
  | .v6 groups =>
    let group (i : Nat) := UInt16.ofNat (groups.getD i 0)
    .v6 ⟨.ofParts (group 0) (group 1) (group 2) (group 3) (group 4) (group 5) (group 6) (group 7),
      port⟩

def peer? (c : TCP.Socket.Client) : IO (Option Net.SocketAddress) := do
  match ← c.getPeerName with
  | .v4 a => return some ⟨.v4 (a.addr.octets.toList.map UInt8.toNat), 0, a.port.toNat⟩
  | .v6 a => return some ⟨.v6 (a.addr.segments.toList.map UInt16.toNat), 0, a.port.toNat⟩

def chunkSize : UInt64 := 65536

/-- Reads on until a head is complete. -/
partial def readHead (c : TCP.Socket.Client) (seen : Bytes) :
    IO (Option (Http.Wire.Head × Bytes)) := do
  match Http.Wire.head? seen with
  | some found => return some found
  | none =>
    match ← (c.recv? chunkSize).block with
    | some more => readHead c (seen ++ more.data.toList)
    | none => return none

/-- Reads on to a length, or to the end where there is none; nothing where the connection ends
before. -/
partial def readBody (c : TCP.Socket.Client) (length : Option Nat) (seen : Bytes) :
    IO (Option Bytes) := do
  match length with
  | some n => if n ≤ seen.length then return some (seen.take n)
  | none => pure ()
  match ← (c.recv? chunkSize).block with
  | some more => readBody c length (seen ++ more.data.toList)
  | none => return if length.isNone then some seen else none

/-! ### The tasks -/

def answer (config : Config) (c : TCP.Socket.Client) (s : Gateway.State Engine) :
    IO (Gateway.State Engine) := do
  let some (head, rest) ← readHead c [] | return s
  let length := head.length?.getD 0
  let body ← if config.maxBody < length then pure none else readBody c (some length) rest
  let some request := head.request? body | return s
  let tree ← treeAt config.scriptRoot
  let seconds := (← Std.Time.Timestamp.now).toSecondsSinceUnixEpoch.val
  let server := Http.Server.ofConfig config [(Backend.scriptVersion, Backend.scripts tree seconds)]
  let salt := (← IO.getRandomBytes 16).data.toList
  let draw : Http.Draw := {
    session := ← freshId
    salt := fun i => Uuid.text (salt.map (· + UInt8.ofNat i)) }
  let (reply, s) := server.handle s request (← peer? c) (← now) draw
  (c.send ⟨(Http.Wire.answer reply).toArray⟩).block
  c.shutdown.block
  return s

/-- Answers connections without end. -/
partial def answerAll (config : Config) (server : TCP.Socket.Server) (s : Gateway.State Engine) :
    IO Unit := do
  let c ← server.accept.block
  answerAll config server (← try answer config c s catch _ => pure s)

def serve (config : Config) : IO Cli.Outcome := do
  try
    let server ← TCP.Socket.Server.mk
    server.bind (networkAddress config.bind)
    server.listen 128
    let root ←
      try pure (← IO.FS.realPath config.scriptRoot).toString catch _ => pure config.scriptRoot
    let seed := (← IO.getRandomBytes 8).data.foldl (fun n b => n * 256 + b.toUInt64) 0
    answerAll config server { shared := {
      root
      costs := Engine.costsOf config
      network := fun _ => .error "network is unreachable"
      random := seed } }
    return { code := 0 }
  catch e => return (Cli.Serve.bindFailure config.bind (toString e)).outcome

def addresses (u : Http.Url) : IO (List Std.Net.SocketAddress) := do
  match Net.SocketAddress.ofText? (u.host ++ ":" ++ toString u.port) with
  | some a => return [networkAddress a]
  | none =>
    let found ← (DNS.getAddrInfo u.host "").block
    return found.toList.map fun
      | .v4 a => .v4 ⟨a, UInt16.ofNat u.port⟩
      | .v6 a => .v6 ⟨a, UInt16.ofNat u.port⟩

def exchange (p : Cli.Call.Post) : IO Bytes := do
  if p.url.scheme = .https then throw (IO.userError "secure connections are not spoken")
  let some address := (← addresses p.url).head? | throw (IO.userError "no address for this host")
  let c ← TCP.Socket.Client.mk
  (c.connect address).block
  (c.send ⟨(Http.Wire.post p.url p.session p.body).toArray⟩).block
  let some (head, rest) ← readHead c []
    | throw (IO.userError "connection closed before message completed")
  let some body ← readBody c head.length? rest
    | throw (IO.userError "end of file before message length reached")
  return body

def carryOut : Cli.Task → IO Cli.Outcome
  | .finished outcome => return outcome
  | .serve config => serve config
  | .call address post => do
    try return Cli.Call.outcome (← exchange post)
    catch e =>
      return (Cli.Call.sendFailure address [Cli.Call.sendCause post.url, toString e]).outcome

end ScriptGate.Program

def main (args : List String) : IO UInt32 := do
  let nodeVariable ← IO.getEnv Cli.Serve.nodeVariable
  let task := Cli.task args nodeVariable (← Program.freshId)
  let outcome ← Program.carryOut task
  IO.print outcome.stdout
  IO.eprint outcome.stderr
  return UInt32.ofNat outcome.code
