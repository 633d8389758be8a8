import ScriptGate.Guest.Declaration
import ScriptGate.Guest.Journal
import ScriptGate.Guest.Modules
import ScriptGate.Guest.Outbound
import ScriptGate.Guest.Records
import ScriptGate.Guest.Request
import ScriptGate.Lua.Machine
import ScriptGate.Storage.Pool

/-!
# The host of a call

The host answers what a guest asks: calls of its functions, members of its objects, and the contents
of files. A function that raises an error leaves everything as it is, but for the two that close the
answer and end the script by an error.
-/

namespace ScriptGate.Guest

open Lua (Value Heap)

structure Surroundings where
  call : Call
  seed : Int64
  costs : Secrets.Costs
  /-- The clock in seconds. -/
  now : Int
  network : Outbound.Network
  /-- The content of the file at a path. -/
  file : String → Option Bytes

/-- A connection of a script, and whether its statements are logged. -/
structure Connection where
  storage : Storage.Connection
  log : Bool

/-- A write of a script: the number of its answer, and the handle. -/
structure Write where
  ticket : Nat
  pending : Storage.Pending := {}

structure World where
  draft : Answer.Draft := {}
  /-- The journal, the last line first. -/
  journal : List Line := []
  pool : Storage.Pool := {}
  connections : Array Connection := #[]
  writes : Array Write := #[]
  /-- The files that have been opened, the last one first. -/
  opened : List Bytes := []
  random : UInt64 := 0

/-- What a function of the host gives: values or an error, and what it has changed. -/
structure Reaction where
  result : Except Fault (List Value)
  world : World
  heap : Heap

namespace World

def note (w : World) (l : Line) : World := { w with journal := l :: w.journal }

def salt (w : World) : Bytes × World :=
  let a := Lua.Library.Arithmetic.advance w.random
  let b := Lua.Library.Arithmetic.advance a
  let bytes (x : UInt64) : Bytes :=
    (List.range 8).map fun i => (x >>> (8 * UInt64.ofNat i)).toUInt8
  (bytes (Lua.Library.Arithmetic.mix a) ++ bytes (Lua.Library.Arithmetic.mix b),
    { w with random := b })

end World

namespace Host

/-! ### Functions without a state -/

def outbound (e : Surroundings) (w : World) (h : Heap) (post : Bool) (args : List Value) :
    Reaction :=
  match Outbound.read post e.call.caller args with
  | .error f => ⟨.error f, w, h⟩
  | .ok (log, r) =>
    match Outbound.fetch e.network r with
    | .error message =>
      let w := if log then w.note (.outboundFailed e.call.script r.method r.url message) else w
      ⟨.ok (answerOf (.error message)), w, h⟩
    | .ok answer =>
      let w := if log then w.note (.outbound e.call.script r.method r.url answer.status) else w
      let (v, h) := Outbound.toTable answer h
      ⟨.ok (answerOf (.ok v)), w, h⟩

def passwordHash (e : Surroundings) (w : World) (h : Heap) (args : List Value) : Reaction :=
  let given : Except Fault (Bytes × Option Int64) := do
    let password ← Argument.bytes (Argument.get args 0)
    return (password, ← Argument.optional Argument.int (Argument.get args 1))
  match given with
  | .error f => ⟨.error f, w, h⟩
  | .ok (password, cost) =>
    let (salt, w) := w.salt
    ⟨.ok (answerOf (Secrets.passwordHash e.costs password cost salt)), w, h⟩

/-! ### Databases -/

def wantsLog (h : Heap) (options : Option Nat) : Bool :=
  options.any fun place => (h.member place "log").isTrue

def connect (w : World) (h : Heap) (args : List Value) : Reaction :=
  let given : Except Fault (String × Option Nat) := do
    let path ← Argument.text (Argument.get args 0)
    return (path, ← Argument.optional Argument.table (Argument.get args 1))
  match given with
  | .error f => ⟨.error f, w, h⟩
  | .ok (path, options) =>
    match w.pool.connect path with
    | .error f => ⟨.ok (answerOf (.error f.message)), w, h⟩
    | .ok (c, pool) =>
      let v : Value := .object (.connection w.connections.size)
      let connections := w.connections.push ⟨c, wantsLog h options⟩
      ⟨.ok (answerOf (.ok v)), { w with pool, connections }, h⟩

def connectionOf (w : World) (v : Value) : Except Fault (Nat × Connection) :=
  match v with
  | .object (.connection n) =>
    match w.connections[n]? with
    | some c => .ok (n, c)
    | none => .error (.unfit "connection")
  | _ => .error (.unfit "connection")

def writeOf (w : World) (v : Value) : Except Fault (Nat × Write) :=
  match v with
  | .object (.write n) =>
    match w.writes[n]? with
    | some x => .ok (n, x)
    | none => .error (.unfit "write")
  | _ => .error (.unfit "write")

/-- The connection, the statement and the list of parameters of a call. -/
def statement (w : World) (args : List Value) :
    Except Fault (Connection × String × Option Nat) := do
  let (_, c) ← connectionOf w (Argument.get args 0)
  let sql ← Argument.text (Argument.get args 1)
  return (c, sql, ← Argument.optional Argument.table (Argument.get args 2))

def trace (e : Surroundings) (w : World) (c : Connection) (operation sql : String) : World :=
  if c.log then
    w.note (.storage operation e.call.script ("/".intercalate c.storage.place) sql)
  else w

/-- Queues a write. The writers work on at once, so that there is always room. -/
def exec (e : Surroundings) (w : World) (h : Heap) (args : List Value) : Reaction :=
  match statement w args with
  | .error f => ⟨.error f, w, h⟩
  | .ok (c, sql, list) =>
    match Records.parameters h list with
    | .error message => ⟨.ok (answerOf (.error message)), w, h⟩
    | .ok parameters =>
      let w := trace e w c "exec" sql
      match w.pool.settle.submit c.storage sql parameters with
      | .refused f => ⟨.ok (answerOf (.error f.message)), w, h⟩
      | .full => ⟨.ok (answerOf (.error Storage.Fault.writerStopped.message)), w, h⟩
      | .accepted ticket pool =>
        let v : Value := .object (.write w.writes.size)
        let w := { w with pool := pool.settle, writes := w.writes.push { ticket } }
        ⟨.ok (answerOf (.ok v)), w, h⟩

def query (e : Surroundings) (w : World) (h : Heap) (args : List Value) : Reaction :=
  match statement w args with
  | .error f => ⟨.error f, w, h⟩
  | .ok (c, sql, list) =>
    match Records.parameters h list with
    | .error message => ⟨.ok (answerOf (.error message)), w, h⟩
    | .ok parameters =>
      let w := trace e w c "query" sql
      match w.pool.query c.storage sql parameters with
      | .error f => ⟨.ok (answerOf (.error f.message)), w, h⟩
      | .ok rows =>
        let (v, h) := Records.toTable rows h
        ⟨.ok (answerOf (.ok v)), w, h⟩

def close (w : World) (h : Heap) (args : List Value) : Reaction :=
  match connectionOf w (Argument.get args 0) with
  | .error f => ⟨.error f, w, h⟩
  | .ok (n, c) =>
    let connections := w.connections.setIfInBounds n { c with storage := c.storage.close }
    ⟨.ok [.bool true], { w with connections }, h⟩

def outcomeValues (o : Storage.Outcome) : List Value :=
  answerOf ((o.mapError (·.message)).map Value.ofNat)

def keep (w : World) (n : Nat) (x : Write) (p : Storage.Pending) : World :=
  { w with writes := w.writes.setIfInBounds n { x with pending := p } }

def wait (w : World) (h : Heap) (args : List Value) : Reaction :=
  match writeOf w (Argument.get args 0) with
  | .error f => ⟨.error f, w, h⟩
  | .ok (n, x) =>
    let w := { w with pool := w.pool.settle }
    match x.pending.wait (w.pool.reply x.ticket) with
    | some (o, p) => ⟨.ok (outcomeValues o), keep w n x p, h⟩
    | none => ⟨.ok (outcomeValues (.error .writerStopped)), w, h⟩

/-- The outcome of a write, two nils while there is none. -/
def check (w : World) (h : Heap) (args : List Value) : Reaction :=
  match writeOf w (Argument.get args 0) with
  | .error f => ⟨.error f, w, h⟩
  | .ok (n, x) =>
    let (o, p) := x.pending.check (w.pool.reply x.ticket)
    ⟨.ok (o.elim [.nil, .nil] outcomeValues), keep w n x p, h⟩

/-! ### All functions -/

def declare (w : World) (h : Heap) (d : Except Fault Declaration) : Reaction :=
  match d with
  | .error f => ⟨.error f, w, h⟩
  | .ok d => ⟨if d.isFinal then .error .halt else .ok [], { w with draft := d.apply w.draft }, h⟩

/-- A function that changes nothing. -/
def pure_ (w : World) (h : Heap) (r : Except Fault (List Value)) : Reaction := ⟨r, w, h⟩

/-- A function that makes values. -/
def making (w : World) (h : Heap) (r : Except Fault (Value × Heap)) : Reaction :=
  match r with
  | .error f => ⟨.error f, w, h⟩
  | .ok (v, h) => ⟨.ok [v], w, h⟩

def call (e : Surroundings) (w : World) (h : Heap) (f : Capability) (args : List Value) :
    Reaction :=
  let first := Argument.get args 0
  let second := Argument.get args 1
  match f with
  | .loader m => making w h (.ok (m.build e.call e.seed e.costs h))
  | .paramsGet => making w h (Request.parameter e.call.params h first second)
  | .headersGet => making w h (.ok (Request.header e.call.caller h first second))
  | .logLine severity =>
    let l := Line.script severity e.call.script e.call.caller.session (render h first)
    ⟨.ok [], w.note l, h⟩
  | .logEvent severity => ⟨.ok [], w.note (.event severity e.call.script (render h first)), h⟩
  | .httpGet => outbound e w h false args
  | .httpPost => outbound e w h true args
  | .passwordHash => passwordHash e w h args
  | .passwordCompare => pure_ w h (Secrets.passwordCompare args)
  | .digest => pure_ w h (Secrets.digest args)
  | .tokenEncode => pure_ w h (Secrets.tokenEncode h e.now args)
  | .tokenDecode =>
    match Secrets.tokenDecode h e.now args with
    | .error f => ⟨.error f, w, h⟩
    | .ok (vs, h) => ⟨.ok vs, w, h⟩
  | .storageConnect => connect w h args
  | .connectionExec => exec e w h args
  | .connectionQuery => query e w h args
  | .connectionClose => close w h args
  | .writeWait => wait w h args
  | .writeCheck => check w h args
  | .responseSet | .responseSend | .responseSetError | .responseSendError =>
    match Declaration.read f h args with
    | some d => declare w h d
    | none => ⟨.ok [], w, h⟩

def member (w : World) (h : Heap) (o : Object) (key : Value) : Reaction :=
  let name := match key with
    | .str s => (s.toString?).getD ""
    | _ => ""
  match o with
  | .connection _ =>
    match name with
    | "exec" => ⟨.ok [.host .connectionExec], w, h⟩
    | "query" => ⟨.ok [.host .connectionQuery], w, h⟩
    | "close" => ⟨.ok [.host .connectionClose], w, h⟩
    | _ => ⟨.ok [.nil], w, h⟩
  | .write n =>
    match name with
    | "wait" => ⟨.ok [.host .writeWait], w, h⟩
    | "check" => ⟨.ok [.host .writeCheck], w, h⟩
    | "done" =>
      match w.writes[n]? with
      | some x =>
        let (done, p) := x.pending.isDone (w.pool.reply x.ticket)
        ⟨.ok [.bool done], keep w n x p, h⟩
      | none => ⟨.ok [.nil], w, h⟩
    | name => ⟨.error (.noMember name), w, h⟩
  | .failure _ => ⟨.error (.noMember name), w, h⟩

def react (e : Surroundings) (w : World) (h : Heap) (q : Lua.Question) : Reaction :=
  match q with
  | .call f args _ => call e w h f args
  | .member o key => member w h o key
  | .setMember .. => ⟨.error (.unfit "table"), w, h⟩
  | .readFile path =>
    match path.toString?.bind e.file with
    | some content => ⟨.ok [.str content], { w with opened := path :: w.opened }, h⟩
    | none => ⟨.ok [.nil], w, h⟩

def resume (s : Lua.State) (r : Reaction) : Lua.State :=
  match r.result with
  | .ok vs => { s with heap := r.heap, control := .values vs }
  | .error f =>
    let (v, heap) := r.heap.newFailure f.message
    { s with heap }.raise v

/-- Runs a guest and answers what it asks, until it stops; no answer where the fuel runs out. -/
def run (e : Surroundings) :
    (fuel : Nat) → Lua.State → World → Option Lua.State.Stop × Heap × World
  | 0, s, w => (none, s.heap, w)
  | fuel + 1, s, w =>
    match s.step with
    | .moved s => run e fuel s w
    | .stopped stop h => (some stop, h, w)
    | .asked q s =>
      let r := react e w s.heap q
      run e fuel (resume s r) r.world

end Host

end ScriptGate.Guest
