import ScriptGate.Lua.Syntax
import ScriptGate.Lua.Table

/-!
# The state of a guest

A guest is at a point of control, with a stack of frames that wait for values and a heap. A frame
says what is to be done with the values that arrive at it. A coroutine at rest is a stack of frames
in the heap.
-/

namespace ScriptGate.Lua

structure Site where
  chunk : Bytes
  line : Nat

/-- Where an expression is evaluated: the cells of its variables, the last one first, the surplus
arguments, and the name of the chunk. -/
structure Env where
  scope : List Nat
  rest : List Value
  chunk : Bytes

def Env.site (env : Env) (line : Nat) : Site := ⟨env.chunk, line⟩

inductive Exit where
  | give (values : List Value)
  | tail (function : Value) (args : List Value)
  | raise (error : Value)
  | leave
  | goto (label : Bytes)

inductive Target where
  | cell (place : Nat)
  | member

/-- The state of a sort by merging: runs in order, runs merged in this pass, and the merge under way
of two runs, its result last first. -/
structure Merge where
  todo : List (List Value)
  done : List (List Value)
  left : List Value
  right : List Value
  out : List Value

/-- The state of a replacement: text and pattern, the place to go on from, what has been written,
how many replacements have been made and how many may be. -/
structure Replacement where
  src : Array UInt8
  pat : Array UInt8
  start : Nat
  anchored : Bool
  replace : Value
  at_ : Nat
  out : Array UInt8
  count : Nat
  limit : Nat

/-- What waits for values. -/
inductive Frame where
  -- expressions
  | list (done : List Value) (todo : List Expr) (env : Env)
  | single
  | unary (op : Unary) (site : Site)
  | binaryRight (op : Binary) (right : Expr) (env : Env) (line : Nat)
  | binary (op : Binary) (left : Value) (site : Site)
  | andThen (right : Expr) (env : Env)
  | orElse (right : Expr) (env : Env)
  | indexKey (key : Expr) (env : Env) (line : Nat)
  | index (object : Value) (site : Site)
  | callArgs (args : List Expr) (env : Env) (line : Nat) (tail : Bool)
  | methodArgs (name : Bytes) (args : List Expr) (env : Env) (line : Nat) (tail : Bool)
  | methodFound (object : Value) (args : List Expr) (env : Env) (line : Nat) (tail : Bool)
  | apply (function : Value) (first : List Value) (site : Site) (tail : Bool)
  | tableItem (place count : Nat) (pending : List Value) (todo : List Field)
    (env : Env) (line : Nat)
  | tableKey (place count : Nat) (pending : List Value) (value : Expr) (todo : List Field)
    (env : Env) (line : Nat)
  | tableValue (place count : Nat) (pending : List Value) (key : Value) (todo : List Field)
      (env : Env) (line : Nat)
  -- statements
  | next (todo : List Stat) (env : Env)
  | bind (closing : List Bool) (todo : List Stat) (env : Env) (line : Nat)
  | targets (targets : List Target) (values : List Expr) (env : Env) (line : Nat)
  | assign (targets : List Target) (members : List Value) (site : Site)
  | store (todo : List (Target × Value × Value × Value)) (site : Site)
  | whileTest (condition : Expr) (body : List Stat) (env : Env)
  | whileBody (condition : Expr) (body : List Stat) (env : Env)
  | repeatBody (body : List Stat) (env : Env)
  | ifTest (body other : List Stat) (env : Env)
  | numericInit (body : List Stat) (env : Env) (line : Nat)
  | intLoop (i : Int64) (count : Nat) (step : Int64) (body : List Stat) (env : Env)
  | floatLoop (x stop step : Binary64) (body : List Stat) (env : Env)
  | genericInit (count : Nat) (body : List Stat) (env : Env) (line : Nat)
  | genericCall (f s : Value) (count : Nat) (body : List Stat) (env : Env) (line : Nat)
  | genericBody (f s control : Value) (count : Nat) (body : List Stat) (env : Env) (line : Nat)
  | giveBack
  | labelled (name : Bytes) (todo : List Stat) (env : Env)
  -- leaving a scope
  | close (value : Value) (site : Site)
  | restore (values : List Value)
  | resumeExit (exit : Exit)
  -- calls
  | activation (site : Option Site) (outer : Nat)
  /-- Where errors stop. A handler is given an error before anything is unwound. -/
  | guarded (handler : Option Value) (site : Option Site)
  /-- Takes what a handler makes of an error. -/
  | handled
  | resumed (thread : Nat) (wrapped : Bool) (site : Option Site) (outer : Nat)
  /-- Where a coroutine is closed. -/
  | closed (outer : Nat)
  -- operators with a metamethod
  | truth (expected : Bool)
  | discard
  | checkedText
  -- library functions under way
  | sort (merge : Merge) (place : Nat) (comparator : Value) (site : Option Site)
  | replace (r : Replacement) (whole : Bytes) (stop : Nat) (site : Option Site)
  | formatted (done todo : List Value) (site : Option Site)
  | readChunk (reader : Value) (read : Bytes) (name : Bytes) (globals : Option Value)
  | counted (i : Int64)
  | threePlaces
  -- the search for a module
  | wanted (name : Bytes) (site : Option Site)
  | searched (name : Bytes) (next : Nat) (message : Bytes) (site : Option Site)
  | made (name : Bytes) (data : Value) (site : Option Site)
  | stored (name : Bytes) (data : Value) (site : Option Site)
  | found (data : Value)
  | opened (path : Bytes) (todo : List Bytes) (message : Bytes) (load : Option Bytes)
      (site : Option Site)

inductive Question where
  | call (f : Guest.Capability) (args : List Value) (site : Option Site)
  /-- Gets or sets a member of an object. -/
  | member (object : Guest.Object) (key : Value)
  | setMember (object : Guest.Object) (key value : Value)
  /-- The content of a file, as one value, or nil where it cannot be read. -/
  | readFile (path : Bytes)

inductive Control where
  | eval (e : Expr) (env : Env)
  | exec (body : List Stat) (env : Env)
  | values (vs : List Value)
  | call (f : Value) (args : List Value) (site : Option Site)
  | index (object key : Value) (site : Option Site) (hops : Nat)
  | setIndex (object key value : Value) (site : Option Site) (hops : Nat)
  | exit (x : Exit)
  | ask (q : Question)

inductive Status where
  | suspended
  | running
  | normal
  | dead
  deriving DecidableEq

structure Thread where
  status : Status
  /-- The frames of one at rest, or what one that has failed leaves to be closed. -/
  frames : List Frame := []
  /-- The function to begin with, before the first resumption. -/
  start : Option Value := none
  /-- The error that has ended it, until it is closed. -/
  failure : Option Value := none

inductive Closure where
  | function (parameters : Nat) (takesRest : Bool) (body : List Stat) (scope : List Nat)
      (chunk : Bytes)
  | wrapped (thread : Nat)
  | matcher (src pat : Array UInt8) (at_ : Nat) (lastEnd : Option Nat)

structure Heap where
  cells : Array Value := #[]
  tables : Array Table := #[]
  closures : Array Closure := #[]
  threads : Array Thread := #[]
  /-- The texts of the errors that the host has raised. -/
  failures : Array String := #[]
  globals : Nat := 0
  /-- The table of the modules that have been loaded, and that of the loaders given beforehand. -/
  loaded : Nat := 0
  preload : Nat := 0
  package : Nat := 0
  textMetatable : Nat := 0
  /-- The metatable of the arrays that the host makes. -/
  arrayMetatable : Nat := 0
  /-- The clock in seconds, and the state of the random numbers. -/
  clock : Int := 0
  random : UInt64 := 0

structure State where
  control : Control
  frames : List Frame
  heap : Heap
  /-- How many calls are under way. -/
  depth : Nat

namespace Heap

def table (h : Heap) (place : Nat) : Table := h.tables.getD place {}

def newTable (h : Heap) (t : Table) : Value × Heap :=
  (.table h.tables.size, { h with tables := h.tables.push t })

def newCell (h : Heap) (v : Value) : Nat × Heap :=
  (h.cells.size, { h with cells := h.cells.push v })

def newClosure (h : Heap) (c : Closure) : Value × Heap :=
  (.closure h.closures.size, { h with closures := h.closures.push c })

def newThread (h : Heap) (t : Thread) : Nat × Heap :=
  (h.threads.size, { h with threads := h.threads.push t })

def newFailure (h : Heap) (text : String) : Value × Heap :=
  (.object (.failure h.failures.size), { h with failures := h.failures.push text })

def modifyTable (h : Heap) (place : Nat) (f : Table → Table) : Heap :=
  { h with tables := h.tables.modify place f }

def rawGet (h : Heap) (place : Nat) (key : Value) : Value :=
  match key.key? with
  | some key => (h.table place).get key
  | none => .nil

/-- Sets a member, without metamethods. The key is what `Value.key?` gives. -/
def rawSet (h : Heap) (place : Nat) (key value : Value) : Heap :=
  h.modifyTable place (·.set key value)

def member (h : Heap) (place : Nat) (name : String) : Value := (h.table place).get (.text name)

def metatable? (h : Heap) : Value → Option Nat
  | .table place => (h.table place).metatable
  | .str _ => some h.textMetatable
  | _ => none

def metamethod (h : Heap) (v : Value) (event : String) : Value :=
  match h.metatable? v with
  | some m => h.member m event
  | none => .nil

end Heap

end ScriptGate.Lua
