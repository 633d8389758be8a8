import ScriptGate.Caller
import ScriptGate.Guest.Argument
import ScriptGate.Guest.Secrets

/-!
# The modules of the host

What a script finds in the modules that it requires from the host. Every module is made for one call
and carries the seed of that call, by which it can be told from a table that a script has put in its
place.
-/

namespace ScriptGate.Guest

open Lua (Value Heap Table)

structure Call where
  caller : Caller
  method : String
  params : Json
  /-- The path of the script as it is shown. -/
  script : String

/-- The member of a module that holds the seed. -/
def seedKey : String := "__seed"

namespace Module

def functions (fs : List (String × Capability)) : List (String × Value) :=
  fs.map fun f => (f.1, .host f.2)

def tableOf (members : List (String × Value)) (h : Heap) : Value × Heap :=
  h.newTable (.ofEntries (members.map fun m => (.text m.1, m.2)))

def seeded (seed : Int64) (members : List (String × Value)) (h : Heap) : Value × Heap :=
  tableOf (members ++ [(seedKey, .int seed)]) h

def sessionTable (c : Call) (seed : Int64) (h : Heap) : Value × Heap :=
  let (params, h) := tableOf (functions [("get", .paramsGet)]) h
  let (headers, h) := tableOf (functions [("get", .headersGet)]) h
  let (request, h) := tableOf [
    ("method", .text c.method), ("address", .text c.caller.address), ("params", params),
    ("headers", headers)] h
  let (response, h) := tableOf (functions [
    ("set", .responseSet), ("send", .responseSend), ("set_error", .responseSetError),
    ("send_error", .responseSendError)]) h
  seeded seed [("id", .text c.caller.session), ("request", request), ("response", response)] h

def build (c : Call) (seed : Int64) (costs : Secrets.Costs) (m : Module) (h : Heap) :
    Value × Heap :=
  match m with
  | .session => sessionTable c seed h
  | .log => seeded seed (functions [
      ("debug", .logLine .debug), ("info", .logLine .info), ("warn", .logLine .warn),
      ("error", .logLine .error), ("event", .logEvent .info), ("event_warn", .logEvent .warn),
      ("event_error", .logEvent .error)]) h
  | .net =>
    let (http, h) := tableOf (functions [("get_request", .httpGet), ("post_request", .httpPost)]) h
    seeded seed [("http", http)] h
  | .bcrypt => seeded seed ([
      ("MinCost", .ofNat costs.least), ("MaxCost", .ofNat costs.greatest),
      ("DefaultCost", .ofNat costs.usual)] ++
      functions [("generate", .passwordHash), ("compare", .passwordCompare)]) h
  | .sha256 => seeded seed (functions [("sum", .digest)]) h
  | .jwt => seeded seed (functions [("encode", .tokenEncode), ("decode", .tokenDecode)]) h
  | .sqlite => seeded seed (functions [("connect", .storageConnect)]) h

def install (h : Heap) : Heap :=
  Module.all.foldl
    (fun h m => h.rawSet h.preload (.text m.name) (.host (.loader m))) h

end Module

/-- Whether the module with the answer, as it is kept among the loaded ones, is that of a call. -/
def isGenuine (h : Heap) (loaded : Nat) (seed : Int64) : Bool :=
  match h.member loaded Module.session.name with
  | .table place =>
    match Argument.optional Argument.int (h.member place seedKey) with
    | .ok (some s) => s == seed
    | _ => false
  | _ => false

end ScriptGate.Guest
