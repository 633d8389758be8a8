import ScriptGate.Lua.State

/-!
# Operations on a guest

What an operator, an access or a call does to a guest: it gives values, raises an error, or goes on
with a metamethod.
-/

namespace ScriptGate.Lua

namespace State

def give (s : State) (vs : List Value) : State := { s with control := .values vs }

def push (s : State) (f : Frame) : State := { s with frames := f :: s.frames }

def leave (s : State) (x : Exit) : State := { s with control := .exit x }

/-- The handler that an error under some frames is given to, with the number of handlers under way.
A chunk that is being read keeps its errors. -/
def handler? : List Frame → Option (Value × Nat)
  | [] | .resumed .. :: _ | .closed _ :: _ | .readChunk .. :: _ | .guarded none _ :: _ => none
  | .guarded (some h) _ :: _ => some (h, 0)
  | .handled :: rest => (handler? rest).map fun (h, n) => (h, n + 1)
  | _ :: rest => handler? rest

def maxHandlers : Nat := 100

/-- Raises an error. A handler is called with it first, and what it gives is the error then. -/
def raise (s : State) (error : Value) : State :=
  match handler? s.frames with
  | none => s.leave (.raise error)
  | some (h, n) =>
    if n < maxHandlers then { s.push .handled with control := .call h [error] none }
    else s.leave (.raise (.text "error in error handling"))

/-- A place as it stands in front of a message. -/
def position (site : Option Site) : Bytes :=
  match site with
  | some ⟨chunk, line⟩ => chunk ++ Bytes.ofString (":" ++ toString line ++ ": ")
  | none => []

def fail (s : State) (site : Option Site) (message : String) : State :=
  s.raise (.str (position site ++ Bytes.ofString message))

def call (s : State) (f : Value) (args : List Value) (site : Option Site) : State :=
  { s with control := .call f args site }

def newTable (s : State) (t : Table) : Value × State :=
  let (v, h) := s.heap.newTable t
  (v, { s with heap := h })

/-- How many metamethods may lead to one another in one access. -/
def maxHops : Nat := 2000

def maxDepth : Nat := 190000

/-! ### Operators -/

def numberEvent : Number.Operator → String
  | .add => "__add" | .sub => "__sub" | .mul => "__mul" | .div => "__div" | .mod => "__mod"
  | .pow => "__pow" | .idiv => "__idiv" | .band => "__band" | .bor => "__bor" | .bxor => "__bxor"
  | .shl => "__shl" | .shr => "__shr"

def eitherMethod (h : Heap) (event : String) (a b : Value) : Value :=
  match h.metamethod a event with
  | .nil => h.metamethod b event
  | m => m

/-- The one of two values that is to blame where `ok` does not hold of both. -/
def culprit (ok : Value → Bool) (a b : Value) : Value := if ok a then b else a

def faultMessage (op : Number.Operator) (a b : Value) : Number.Fault → String
  | .divideByZero => "attempt to perform 'n//0'"
  | .moduloByZero => "attempt to perform 'n%%0'"
  | .noInteger =>
    if op.isBitwise then "number has no integer representation"
    else
      "attempt to perform arithmetic on a " ++ (culprit (·.toNumber?.isSome) a b).typeName ++
        " value"

def arithmetic (s : State) (op : Number.Operator) (a b : Value) (site : Site) : State :=
  match a.toNumber?, b.toNumber? with
  | some x, some y =>
    match Number.apply op x y with
    | .ok n => s.give [.number n]
    | .error f => s.fail site (faultMessage op a b f)
  | _, _ =>
    match eitherMethod s.heap (numberEvent op) a b with
    | .nil =>
      let what := if op.isBitwise then "perform bitwise operation on" else "perform arithmetic on"
      let v := culprit (·.toNumber?.isSome) a b
      s.fail site ("attempt to " ++ what ++ " a " ++ v.typeName ++ " value")
    | m => (s.push .single).call m [a, b] site

def concat (s : State) (a b : Value) (site : Site) : State :=
  match a.toText?, b.toText? with
  | some x, some y => s.give [.str (x ++ y)]
  | _, _ =>
    match eitherMethod s.heap "__concat" a b with
    | .nil =>
      let v := culprit (·.toText?.isSome) a b
      s.fail site ("attempt to concatenate a " ++ v.typeName ++ " value")
    | m => (s.push .single).call m [a, b] site

/-- Compares for equality; `expected` is the answer that counts as true. -/
def equal (s : State) (a b : Value) (expected : Bool) (site : Site) : State :=
  if a.rawEq b then s.give [.bool expected]
  else
    match a, b with
    | .table _, .table _ =>
      match eitherMethod s.heap "__eq" a b with
      | .nil => s.give [.bool !expected]
      | m => (s.push (.truth expected)).call m [a, b] site
    | _, _ => s.give [.bool !expected]

def ordered (s : State) (strict : Bool) (a b : Value) (site : Option Site) : State :=
  match a, b with
  | .number x, .number y => s.give [.bool (if strict then x.lt y else x.le y)]
  | .str x, .str y => s.give [.bool (if strict then Bytes.lt x y else !Bytes.lt y x)]
  | _, _ =>
    match eitherMethod s.heap (if strict then "__lt" else "__le") a b with
    | .nil =>
      s.fail site (if a.typeName = b.typeName then
        "attempt to compare two " ++ a.typeName ++ " values"
      else "attempt to compare " ++ a.typeName ++ " with " ++ b.typeName)
    | m => (s.push (.truth true)).call m [a, b] site

def binary (s : State) (op : Binary) (a b : Value) (site : Site) : State :=
  match op with
  | .number op => s.arithmetic op a b site
  | .concat => s.concat a b site
  | .eq => s.equal a b true site
  | .ne => s.equal a b false site
  | .lt => s.ordered true a b site
  | .le => s.ordered false a b site
  | .gt => s.ordered true b a site
  | .ge => s.ordered false b a site

def length (s : State) (v : Value) (site : Option Site) : State :=
  match v with
  | .str t => s.give [.ofNat t.length]
  | v =>
    match s.heap.metamethod v "__len", v with
    | .nil, .table place => s.give [.ofNat (s.heap.table place).length]
    | .nil, v => s.fail site ("attempt to get length of a " ++ v.typeName ++ " value")
    | m, v => (s.push .single).call m [v] site

def unary (s : State) (op : Unary) (v : Value) (site : Site) : State :=
  let withMethod (event what : String) : State :=
    match s.heap.metamethod v event with
    | .nil => s.fail site ("attempt to " ++ what ++ " a " ++ v.typeName ++ " value")
    | m => (s.push .single).call m [v, v] site
  match op with
  | .not => s.give [.bool !v.isTrue]
  | .length => s.length v site
  | .minus =>
    match v.toNumber? with
    | some (.int i) => s.give [.int (-i)]
    | some (.float x) => s.give [.float x.neg]
    | none => withMethod "__unm" "perform arithmetic on"
  | .complement =>
    match v.toNumber? with
    | some n =>
      match n.toInt? with
      | some i => s.give [.int (~~~i)]
      | none => s.fail site "number has no integer representation"
    | none => withMethod "__bnot" "perform bitwise operation on"

/-! ### Members -/

def keyText : Value → String
  | .str t => " (field '" ++ (t.toString?.getD "?") ++ "')"
  | _ => ""

def index (s : State) (object key : Value) (site : Option Site) (hops : Nat) : State :=
  if maxHops ≤ hops then s.fail site "'__index' chain too long; possibly a loop"
  else
    let viaMethod (otherwise : State) : State :=
      match s.heap.metamethod object "__index" with
      | .nil => otherwise
      | .closure p => (s.push .single).call (.closure p) [object, key] site
      | .builtin f => (s.push .single).call (.builtin f) [object, key] site
      | .host f => (s.push .single).call (.host f) [object, key] site
      | m => { s with control := .index m key site (hops + 1) }
    match object with
    | .table place =>
      match s.heap.rawGet place key with
      | .nil => viaMethod (s.give [.nil])
      | v => s.give [v]
    | .object o => { s with control := .ask (.member o key) }
    | v => viaMethod (s.fail site ("attempt to index a " ++ v.typeName ++ " value" ++ keyText key))

def setIndex (s : State) (object key value : Value) (site : Option Site) (hops : Nat) : State :=
  if maxHops ≤ hops then s.fail site "'__newindex' chain too long; possibly a loop"
  else
    let viaMethod (otherwise : State) : State :=
      match s.heap.metamethod object "__newindex" with
      | .nil => otherwise
      | .closure p => (s.push .discard).call (.closure p) [object, key, value] site
      | .builtin f => (s.push .discard).call (.builtin f) [object, key, value] site
      | .host f => (s.push .discard).call (.host f) [object, key, value] site
      | m => { s with control := .setIndex m key value site (hops + 1) }
    match object with
    | .table place =>
      match key.key? with
      | none =>
        viaMethod (s.fail site (if key.isNil then "table index is nil" else "table index is NaN"))
      | some k =>
        let set : State :=
          { s with control := .values [], heap := s.heap.rawSet place k value }
        if ((s.heap.table place).get k).isNil then viaMethod set else set
    | .object o => { s with control := .ask (.setMember o key value) }
    | v => viaMethod (s.fail site ("attempt to index a " ++ v.typeName ++ " value" ++ keyText key))

/-! ### Statements -/

/-- Brings values into cells of their own, the first one first. -/
def bindAll (h : Heap) (scope : List Nat) : List Value → List Nat × Heap
  | [] => (scope, h)
  | v :: vs =>
    let (cell, h) := h.newCell v
    bindAll h (cell :: scope) vs

/-- The first `n` of some values, with nil for those that are missing. -/
def adjust : (n : Nat) → List Value → List Value
  | 0, _ => []
  | n + 1, [] => .nil :: adjust n []
  | n + 1, v :: vs => v :: adjust n vs

/-- Executes statements after those on top; none leave no trace. -/
def andThen (s : State) (todo : List Stat) (env : Env) : State :=
  if todo.isEmpty then s else s.push (.next todo env)

def exec (s : State) (body : List Stat) (env : Env) : State := { s with control := .exec body env }

def eval (s : State) (e : Expr) (env : Env) : State := { s with control := .eval e env }

/-- Evaluates expressions, the last one to all its values. -/
def evalList (s : State) (es : List Expr) (env : Env) : State :=
  match es with
  | [] => s.give []
  | [e] => s.eval e env
  | e :: es => (s.push (.list [] es env)).eval e env

def variable_ (h : Heap) (env : Env) (i : Nat) : Value := h.cells.getD (env.scope.getD i 0) .nil

def bind (s : State) (env : Env) (vs : List Value) : Env × State :=
  let (scope, h) := bindAll s.heap env.scope vs
  ({ env with scope }, { s with heap := h })

/-! ### Calls -/

def enter (s : State) (parameters : Nat) (takesRest : Bool) (body : List Stat) (scope : List Nat)
    (chunk : Bytes) (args : List Value) (site : Option Site) : State :=
  if maxDepth ≤ s.depth then s.fail site "stack overflow"
  else
    let (scope, h) := bindAll s.heap scope (adjust parameters args)
    let env : Env := ⟨scope, if takesRest then args.drop parameters else [], chunk⟩
    { control := .exec body env
      frames := .activation site s.depth :: s.frames
      heap := h
      depth := s.depth + 1 }

def current? (frames : List Frame) : Option Nat :=
  frames.findSome? fun
    | .resumed t .. => some t
    | _ => none

def modifyThread (s : State) (t : Nat) (f : Thread → Thread) : State :=
  { s with heap := { s.heap with threads := s.heap.threads.modify t f } }

def resume (s : State) (t : Nat) (args : List Value) (wrapped : Bool) (site : Option Site) :
    State :=
  match s.heap.threads[t]? with
  | some { status := .suspended, frames, start, .. } =>
    let s := match current? s.frames with
      | some parent => s.modifyThread parent ({ · with status := .normal })
      | none => s
    let s := s.modifyThread t fun _ => { status := .running }
    let s := s.push (.resumed t wrapped site s.depth)
    match start with
    | some f => s.call f args none
    | none => { s with frames := frames ++ s.frames, control := .values args }
  | some { status, .. } =>
    let what := if status = .dead then "cannot resume dead coroutine"
      else "cannot resume non-suspended coroutine"
    if wrapped then s.fail site what else s.give [.bool false, .text what]
  | none => s.give [.bool false, .text "cannot resume dead coroutine"]

/-- The coroutine that an error under some frames ends, with nothing closed before. -/
def ended? : List Frame → Option Nat
  | .resumed t false _ _ :: _ => some t
  | [] | .resumed _ true _ _ :: _ | .closed _ :: _ | .readChunk .. :: _ | .guarded .. :: _ => none
  | _ :: rest => ended? rest

def leaveOpen (s : State) (t : Nat) (f : Frame) : State :=
  s.modifyThread t fun th => { th with frames := th.frames ++ [f] }

def closeThread (s : State) (t : Nat) (th : Thread) : State :=
  let pending := th.frames.filter fun
    | .close .. => true
    | _ => false
  let x := th.failure.elim (.give []) .raise
  { s.modifyThread t fun _ => { status := .dead } with
    frames := pending ++ .closed s.depth :: s.frames
    control := .exit x }

/-- What has come of a coroutine: it is dead, and the one below goes on. -/
def endThread (s : State) (t outer : Nat) (failure : Option Value) : State :=
  let s := s.modifyThread t fun th => { status := .dead, frames := th.frames, failure }
  let s := { s with depth := outer }
  match current? s.frames with
  | some parent => s.modifyThread parent ({ · with status := .running })
  | none => s

/-- The frames above the nearest coroutine boundary, the boundary, and the frames below. -/
def split? : List Frame → Option (List Frame × (Nat × Bool × Nat) × List Frame)
  | [] => none
  | .resumed t wrapped _ outer :: rest => some ([], (t, wrapped, outer), rest)
  | f :: rest => (split? rest).map fun (above, boundary, below) => (f :: above, boundary, below)

/-- Whether a frame belongs to a function that cannot be put to rest. -/
def isFixed : Frame → Bool
  | .guarded .. | .handled | .closed _ | .checkedText | .formatted .. | .sort .. | .replace ..
  | .readChunk .. | .counted _ | .wanted .. | .searched .. | .made .. | .stored .. | .found _
  | .opened .. => true
  | _ => false

def canYield (frames : List Frame) : Bool :=
  (split? frames).any fun (above, _) => !above.any isFixed

def yield_ (s : State) (vs : List Value) : State :=
  match split? s.frames with
  | none => s.fail none "attempt to yield from outside a coroutine"
  | some (above, (t, wrapped, outer), below) =>
    if above.any isFixed then s.fail none "attempt to yield across a C-call boundary"
    else
    let s := s.modifyThread t fun _ => { status := .suspended, frames := above }
    let s := { s with frames := below, depth := outer }
    let s := match current? below with
      | some parent => s.modifyThread parent ({ · with status := .running })
      | none => s
    s.give (if wrapped then vs else .bool true :: vs)

end State

end ScriptGate.Lua
