import ScriptGate.Config
import ScriptGate.FileTree
import ScriptGate.Guest.Host
import ScriptGate.Lua.Globals

/-!
# Running scripts

Every call has a guest of its own; only the storage outlives it. Where there is a prepare script, it
runs first in the same guest. The first answer that either of them closes is the answer of the call,
however the script ends after that; a script that fails without one fails the call.
-/

namespace ScriptGate.Engine

open Lua (Heap)
open Guest (World Surroundings)

inductive Fault where
  /-- The script cannot be read. -/
  | unreadable (path : String)
  | prepare (message : String)
  | script (message : String)
  deriving DecidableEq, Repr

inductive Exit where
  | completed
  | raised (message : String)
  deriving DecidableEq, Repr

/-! ### The order of scripts -/

/-- Runs the prepare script, if there is one, and then the script of the method, unless the first
has closed the answer. `isClosed` says whether the answer is closed in a state, and `finish` what
the answer is. -/
def sequence {σ : Type} (isClosed : σ → Bool) (finish : σ → Answer.Reply)
    (prepare : Option (σ → Exit × σ)) (main : σ → Exit × σ) (s : σ) :
    Except Fault Answer.Reply × σ :=
  let last (s : σ) : Except Fault Answer.Reply × σ :=
    match main s with
    | (.completed, s) => (.ok (finish s), s)
    | (.raised m, s) => (if isClosed s then .ok (finish s) else .error (.script m), s)
  match prepare with
  | none => last s
  | some prepare =>
    match prepare s with
    | (.completed, s) => if isClosed s then (.ok (finish s), s) else last s
    | (.raised m, s) => if isClosed s then (.ok (finish s), s) else (.error (.prepare m), s)

/-! ### Scripts in a guest -/

/-- How many steps a script may take. No script that ends comes near it. -/
def stepLimit : Nat := 1000000000000000

/-- A guest between two scripts, and what its call has changed. -/
structure State where
  heap : Heap
  world : World

def errorText (h : Heap) (v : Lua.Value) : String :=
  match v with
  | .object (.failure n) => h.failures.getD n ""
  | v => (v.toText?.map Utf8.lossy).getD ("<" ++ v.typeName ++ ">")

def runScript (e : Surroundings) (source : Bytes) (name : String) (s : State) : Exit × State :=
  match s.heap.load source (Bytes.ofString ("@" ++ name)) (.table s.heap.globals) with
  | .error message => (.raised (Utf8.lossy message), s)
  | .ok (f, heap) =>
    match Guest.Host.run e stepLimit ⟨.call f [] none, [], heap, 0⟩ s.world with
    | (some (.finished _), heap, world) => (.completed, ⟨heap, world⟩)
    | (some (.failed v), heap, world) => (.raised (errorText heap v), ⟨heap, world⟩)
    | (none, heap, world) => (.raised "interrupted", ⟨heap, world⟩)

/-- The answer of a call: what has been declared, or null where the module with the answer is no
longer that of the call. -/
def finish (e : Surroundings) (loaded : Nat) (s : State) : Answer.Reply :=
  if Guest.isGenuine s.heap loaded e.seed then s.world.draft.finish else .result .null

end Engine

/-- What runs scripts: where they are, what they may ask for, and what outlives a call. -/
structure Engine where
  root : String
  costs : Guest.Secrets.Costs
  network : Guest.Outbound.Network
  pool : Storage.Pool := {}
  random : UInt64 := 0

namespace Engine

open Guest (World Surroundings)

def prepareScript : String := "_prepare.lua"

def costsOf (c : Config) : Guest.Secrets.Costs where
  least := c.minCost
  greatest := c.maxCost
  usual := min (max Config.usualCost c.minCost) c.maxCost

/-- The outcome of a call: the answer or a fault, the journal in order, and the engine after it. -/
structure Outcome where
  answer : Except Fault Answer.Reply
  journal : List Guest.Line
  engine : Engine
  /-- The files that the script has opened to find modules, in order. -/
  opened : List Bytes

def fileIn (t : FileTree) (path : String) : Option Bytes := t.read? (Path.components path)

def execute (g : Engine) (t : FileTree) (now : Int) (call : Guest.Call) : Outcome :=
  let path := Path.append g.root call.script
  match fileIn t path with
  | none => ⟨.error (.unreadable path), [], g, []⟩
  | some source =>
    let seed := Lua.Library.Arithmetic.advance g.random
    let random := Lua.Library.Arithmetic.advance seed
    let e : Surroundings := {
      call
      seed := (Lua.Library.Arithmetic.mix seed).toInt64
      costs := g.costs
      now
      network := g.network
      file := fileIn t }
    let heap := Guest.Module.install
      (Lua.Heap.initial g.root now (Lua.Library.Arithmetic.mix random))
    let start : State := ⟨heap, { pool := g.pool, random }⟩
    let prepare := (fileIn t (Path.append g.root prepareScript)).map fun source =>
      runScript e source prepareScript
    let (answer, s) := sequence (·.world.draft.isClosed) (finish e heap.loaded) prepare
      (runScript e source call.script) start
    ⟨answer, s.world.journal.reverse,
      { g with pool := s.world.pool, random := s.world.random }, s.world.opened.reverse⟩

end Engine

end ScriptGate
