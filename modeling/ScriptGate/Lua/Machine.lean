import ScriptGate.Lua.Builtin
import ScriptGate.Word

/-!
# Running guests

`step` takes one step of a guest: it evaluates, executes, gives values to the frame on top, or
unwinds a frame. `run` takes steps until the guest is done or asks something of the host.
-/

namespace ScriptGate.Lua

namespace State

/-! ### Tables under construction -/

/-- How many items of a constructor are kept back at most. -/
def maxPending : Nat := 50

/-- Puts the items that were kept back, last first, behind the first `count` of a table. -/
def flush (s : State) (place count : Nat) (pending : List Value) : State :=
  let total := count + pending.length
  let h := s.heap.modifyTable place fun t =>
    let t := if t.slots.size < total then t.resize total t.room else t
    (pending.reverse.zipIdx (count + 1)).foldl (fun t p => t.set (.ofNat p.2) p.1) t
  { s with heap := h }

def fields (s : State) (place count : Nat) (pending : List Value) (todo : List Field) (env : Env)
    (line : Nat) : State :=
  match todo with
  | [] => (s.flush place count pending).give [.table place]
  | .item e :: rest => (s.push (.tableItem place count pending rest env line)).eval e env
  | .keyed key value :: rest =>
    (s.push (.tableKey place count pending value rest env line)).eval key env

def item (s : State) (vs : List Value) (place count : Nat) (pending : List Value)
    (todo : List Field) (env : Env) (line : Nat) : State :=
  if todo.isEmpty then (s.flush place count (vs.reverse ++ pending)).give [.table place]
  else
    let pending := vs.headD .nil :: pending
    if maxPending ≤ pending.length then
      (s.flush place count pending).fields place (count + pending.length) [] todo env line
    else s.fields place count pending todo env line

/-- Whether an expression may have any number of values. -/
def isOpen : Expr → Bool
  | .call .. | .method .. | .rest => true
  | _ => false

def roomOf (fs : List Field) : Table :=
  let items := fs.countP fun
    | .item _ => true
    | .keyed .. => false
  let surplus := match fs.getLast? with
    | some (.item e) => isOpen e
    | _ => false
  { slots := .replicate (if surplus then items - 1 else items) .nil
    room := Table.roomFor (fs.length - items) }

/-! ### Assignment -/

/-- The parts of targets that have to be evaluated first: objects and keys. -/
def targetParts : List Expr → List Expr
  | [] => []
  | .index o k _ :: rest => .single o :: .single k :: targetParts rest
  | _ :: rest => targetParts rest

def targetOf (env : Env) : Expr → Target
  | .variable i => .cell (env.scope.getD i 0)
  | _ => .member

/-- Targets with their objects, keys and values. -/
def pairUp : List Target → (parts values : List Value) → List (Target × Value × Value × Value)
  | [], _, _ => []
  | .cell c :: rest, parts, values =>
    (.cell c, .nil, .nil, values.headD .nil) :: pairUp rest parts (values.drop 1)
  | .member :: rest, parts, values =>
    (.member, parts.headD .nil, (parts.drop 1).headD .nil, values.headD .nil) ::
      pairUp rest (parts.drop 2) (values.drop 1)

def store (s : State) (todo : List (Target × Value × Value × Value)) (site : Site) : State :=
  match todo with
  | [] => s.give []
  | (.cell c, _, _, v) :: rest =>
    store { s with heap := { s.heap with cells := s.heap.cells.setIfInBounds c v } } rest site
  | (.member, o, k, v) :: rest =>
    (if rest.isEmpty then s else s.push (.store rest site)).setIndex o k v site 0

/-! ### Loops -/

def loopBody (s : State) (f : Frame) (v : Value) (body : List Stat) (env : Env) : State :=
  let (inner, s) := (s.push f).bind env [v]
  s.exec body inner

/-- How often a counting loop is executed after the first time. -/
def iterations (start stop step : Int64) : Nat :=
  ((if 0 < step then stop.toInt - start.toInt else start.toInt - stop.toInt) /
    (step.toInt.natAbs : Int)).toNat

/-- The last value of a counting loop of integers, nothing where there is no iteration. -/
def loopLimit (start : Int64) (stop : Number) (step : Int64) : Option Int64 :=
  match stop with
  | .int i => if 0 < step then (if start ≤ i then some i else none)
    else if i ≤ start then some i else none
  | .float x =>
    if x.isNaN then none
    else
      let i := if x.isInfinite then (if x.isNegative then Word.least64 else Word.greatest64)
        else if 0 < step then x.floor else x.ceil
      if 0 < step then
        if i < start.toInt then none else some (Int64.ofInt (min i Word.greatest64))
      else if start.toInt < i then none
      else some (Int64.ofInt (max i Word.least64))

def countFrom (s : State) (start stop step : Value) (body : List Stat) (env : Env) (line : Nat) :
    State :=
  let site := env.site line
  match start, stop, step with
  | .number (.int i), .number n, .number (.int k) =>
    if k = 0 then s.fail site "'for' step is zero"
    else
      match loopLimit i n k with
      | none => s.give []
      | some last =>
        s.loopBody (.intLoop i (iterations i last k) k body env) (.int i) body env
  | .number a, .number b, .number c =>
    let (x, stop, step) := (a.toFloat, b.toFloat, c.toFloat)
    if step.isZero then s.fail site "'for' step is zero"
    else if if step.isNegative then stop.le x else x.le stop then
      s.loopBody (.floatLoop x stop step body env) (.float x) body env
    else s.give []
  | .number _, .number _, v => s.fail site ("'for' step must be a number (a " ++ v.typeName ++ ")")
  | .number _, v, _ => s.fail site ("'for' limit must be a number (a " ++ v.typeName ++ ")")
  | v, _, _ => s.fail site ("'for' initial value must be a number (a " ++ v.typeName ++ ")")

def iterate (s : State) (f state control : Value) (count : Nat) (body : List Stat) (env : Env)
    (line : Nat) : State :=
  (s.push (.genericCall f state count body env line)).call f [state, control] (env.site line)

/-! ### Scopes -/

def isClosable (h : Heap) (v : Value) : Bool := !v.isTrue || !(h.metamethod v "__close").isNil

/-- Executes the rest of a block after its declaration of variables. -/
def declare (s : State) (vs : List Value) (closing : List Bool) (todo : List Stat) (env : Env)
    (line : Nat) : State :=
  let vs := adjust closing.length vs
  let (inner, s) := s.bind env vs
  match (closing.zip vs).find? (·.1) with
  | none => s.exec todo inner
  | some (_, v) =>
    if isClosable s.heap v then (s.push (.close v (env.site line))).exec todo inner
    else s.fail (env.site line) "variable got a non-closable value"

def closeValue (s : State) (v error : Value) (site : Site) (after : Frame) : State :=
  let s := s.push after
  if v.isTrue then s.call (s.heap.metamethod v "__close") [v, error] site else s.give []

/-! ### Steps -/

def stepEval (s : State) (e : Expr) (env : Env) : State :=
  match e with
  | .nil => s.give [.nil]
  | .bool b => s.give [.bool b]
  | .number n => s.give [.number n]
  | .str t => s.give [.str t]
  | .rest => s.give env.rest
  | .variable i => s.give [variable_ s.heap env i]
  | .index o k line => (s.push (.indexKey k env line)).eval o env
  | .call f args line => (s.push (.callArgs args env line false)).eval f env
  | .method o name args line => (s.push (.methodArgs name args env line false)).eval o env
  | .function (.mk parameters takesRest body) =>
    let (v, h) := s.heap.newClosure (.function parameters takesRest body env.scope env.chunk)
    { s with heap := h, control := .values [v] }
  | .binary op l r line => (s.push (.binaryRight op r env line)).eval l env
  | .unary op e line => (s.push (.unary op (env.site line))).eval e env
  | .and l r => (s.push (.andThen r env)).eval l env
  | .or l r => (s.push (.orElse r env)).eval l env
  | .single e => (s.push .single).eval e env
  | .table fs line =>
    let (v, s) := s.newTable (roomOf fs)
    match v with
    | .table place => s.fields place 0 [] fs env line
    | _ => s

def stepExec (s : State) (body : List Stat) (env : Env) : State :=
  match body with
  | [] => s.give []
  | stat :: todo =>
    match stat with
    | .locals closing values line => (s.push (.bind closing todo env line)).evalList values env
    | .assign targets values line =>
      let parts := targetParts targets
      let s := s.andThen todo env
      let targets := targets.map (targetOf env)
      if parts.isEmpty then
        (s.push (.assign targets [] (env.site line))).evalList values env
      else (s.push (.targets targets values env line)).evalList parts env
    | .call e => (s.andThen todo env).eval e env
    | .block inner => (s.andThen todo env).exec inner env
    | .whileDo c inner => ((s.andThen todo env).push (.whileTest c inner env)).eval c env
    | .repeatUntil inner => ((s.andThen todo env).push (.repeatBody inner env)).exec inner env
    | .until c => (s.push .single).eval c env
    | .ifThen c inner other => ((s.andThen todo env).push (.ifTest inner other env)).eval c env
    | .numericFor start stop step inner line =>
      ((s.andThen todo env).push (.numericInit inner env line)).evalList
        [.single start, .single stop, .single (step.getD (.number (.int 1)))] env
    | .genericFor n values inner line =>
      ((s.andThen todo env).push (.genericInit n inner env line)).evalList values env
    | .localFunction (.mk parameters takesRest inner) =>
      let (cell, h) := s.heap.newCell .nil
      let env := { env with scope := cell :: env.scope }
      let (v, h) := h.newClosure (.function parameters takesRest inner env.scope env.chunk)
      { s with
        heap := { h with cells := h.cells.setIfInBounds cell v }
        control := .exec todo env }
    | .giveBack values => (s.push .giveBack).evalList values env
    | .tailCall e =>
      match e with
      | .call f args line => (s.push (.callArgs args env line true)).eval f env
      | .method o name args line => (s.push (.methodArgs name args env line true)).eval o env
      | e => (s.push .giveBack).eval e env
    | .leave => s.leave .leave
    | .goto l => (s.andThen todo env).leave (.goto l)
    | .label l => (s.push (.labelled l todo env)).exec todo env

def stepCall (s : State) (f : Value) (args : List Value) (site : Option Site) : State :=
  match f with
  | .closure place =>
    match s.heap.closures[place]? with
    | some (.function parameters takesRest body scope chunk) =>
      s.enter parameters takesRest body scope chunk args site
    | some (.wrapped t) => s.resume t args true site
    | some (.matcher src pat at_ lastEnd) => s.nextMatch place src pat at_ lastEnd site
    | none => s.give []
  | .builtin b => s.builtin b args site
  | .host c => { s with control := .ask (.call c args site) }
  | f =>
    match s.heap.metamethod f "__call" with
    | .nil => s.fail site ("attempt to call a " ++ f.typeName ++ " value")
    | m => s.call m (f :: args) site

/-- Gives values to a frame that has been taken from the top. -/
def receive (s : State) (f : Frame) (vs : List Value) : State :=
  let v := vs.headD .nil
  match f with
  | .list done [] _ => s.give (done.reverse ++ vs)
  | .list done [e] env => (s.push (.list (v :: done) [] env)).eval e env
  | .list done (e :: es) env => (s.push (.list (v :: done) es env)).eval e env
  | .single => s.give [v]
  | .unary op site => s.unary op v site
  | .binaryRight op right env line => (s.push (.binary op v (env.site line))).eval right env
  | .binary op left site => s.binary op left v site
  | .andThen right env => if v.isTrue then (s.push .single).eval right env else s.give [v]
  | .orElse right env => if v.isTrue then s.give [v] else (s.push .single).eval right env
  | .indexKey key env line => (s.push (.index v (env.site line))).eval key env
  | .index object site => s.index object v site 0
  | .callArgs args env line tail =>
    (s.push (.apply v [] (env.site line) tail)).evalList args env
  | .methodArgs name args env line tail =>
    (s.push (.methodFound v args env line tail)).index v (.str name) (env.site line) 0
  | .methodFound object args env line tail =>
    (s.push (.apply v [object] (env.site line) tail)).evalList args env
  | .apply f first site tail =>
    let args := first ++ vs
    match tail, f with
    | true, .closure _ => s.leave (.tail f args)
    | true, f => (s.push .giveBack).call f args site
    | false, f => s.call f args site
  | .tableItem place count pending todo env line => s.item vs place count pending todo env line
  | .tableKey place count pending value todo env line =>
    (s.push (.tableValue place count pending v todo env line)).eval value env
  | .tableValue place count pending key todo env line =>
    match key.key? with
    | some key =>
      { s with heap := s.heap.rawSet place key v }.fields place count pending todo env line
    | none => s.fail (env.site line)
      (if key.isNil then "table index is nil" else "table index is NaN")
  | .next todo env => s.exec todo env
  | .bind closing todo env line => s.declare vs closing todo env line
  | .targets targets values env line =>
    (s.push (.assign targets vs (env.site line))).evalList values env
  | .assign targets parts site =>
    s.store (pairUp targets parts (adjust targets.length vs)) site
  | .store todo site => s.store todo site
  | .whileTest c body env =>
    if v.isTrue then (s.push (.whileBody c body env)).exec body env else s.give []
  | .whileBody c body env => (s.push (.whileTest c body env)).eval c env
  | .repeatBody body env =>
    if v.isTrue then s.give [] else (s.push (.repeatBody body env)).exec body env
  | .ifTest body other env => s.exec (if v.isTrue then body else other) env
  | .numericInit body env line =>
    s.countFrom v (vs.getD 1 .nil) (vs.getD 2 .nil) body env line
  | .intLoop i count step body env =>
    if count = 0 then s.give []
    else
      let i := i + step
      s.loopBody (.intLoop i (count - 1) step body env) (.int i) body env
  | .floatLoop x stop step body env =>
    let x := x.add step
    if if step.isNegative then stop.le x else x.le stop then
      s.loopBody (.floatLoop x stop step body env) (.float x) body env
    else s.give []
  | .genericInit n body env line =>
    let closing := vs.getD 3 .nil
    let site := env.site line
    if closing.isNil then s.iterate v (vs.getD 1 .nil) (vs.getD 2 .nil) n body env line
    else if isClosable s.heap closing then
      (s.push (.close closing site)).iterate v (vs.getD 1 .nil) (vs.getD 2 .nil) n body env line
    else s.fail site "variable got a non-closable value"
  | .genericCall f state n body env line =>
    if v.isNil then s.give []
    else
      let (inner, s) := (s.push (.genericBody f state v n body env line)).bind env (adjust n vs)
      s.exec body inner
  | .genericBody f state control n body env line => s.iterate f state control n body env line
  | .giveBack => s.leave (.give vs)
  | .labelled .. => s.give vs
  | .close value site => s.closeValue value .nil site (.restore vs)
  | .restore values => s.give values
  | .resumeExit x => s.leave x
  | .activation _ outer => { s with depth := outer, control := .values [] }
  | .guarded .. => s.give (.bool true :: vs)
  | .handled => s.leave (.raise v)
  | .closed _ => s.give [.bool true]
  | .resumed t wrapped _ outer =>
    (s.endThread t outer none).give (if wrapped then vs else .bool true :: vs)
  | .truth expected => s.give [.bool (v.isTrue == expected)]
  | .discard => s.give []
  | .checkedText =>
    match v with
    | .str _ => s.give [v]
    | .number n => s.give [.text n.text]
    | _ => s.fail none "'__tostring' must return a string"
  | .sort m place comparator site =>
    s.sortOn (Library.Collection.afterComparison m v.isTrue) place comparator site
  | .replace r whole stop site => s.replaced v r whole stop site
  | .formatted done todo site => s.format (v :: done) site todo
  | .readChunk reader read name globals =>
    match v with
    | .nil => s.loadText read name (globals.getD (.table s.heap.globals))
    | .str [] => s.loadText read name (globals.getD (.table s.heap.globals))
    | .str piece => (s.push (.readChunk reader (read ++ piece) name globals)).call reader [] none
    | _ => s.give [.nil, .text "reader function must return a string"]
  | .counted i => s.give (if v.isNil then [.nil] else [.int i, v])
  | .threePlaces => s.give (adjust 3 vs)
  | .wanted name site => s.wanted v name site
  | .searched name next message site => s.searched vs name next message site
  | .made name data site => s.made v name data site
  | .stored name data site => s.stored name data site
  | .found data => s.give [v, data]
  | .opened path todo message load site => s.opened v path todo message load site

/-- What is told of an error that came up while a chunk was read: a failure of the host is kept, and
of anything else its text. -/
def reported (h : Heap) : Value → Value
  | .object (.failure n) => .object (.failure n)
  | v => .str (plainText h v)

/-- Unwinds a frame that has been taken from the top. -/
def unwind (s : State) (f : Frame) (x : Exit) : State :=
  match f, x with
  | .close value site, .raise e =>
    match ended? s.frames with
    | some t => (s.leaveOpen t (.close value site)).leave x
    | none => s.closeValue value e site (.resumeExit x)
  | .close value site, x => s.closeValue value .nil site (.resumeExit x)
  | .whileBody .., .leave | .repeatBody .., .leave | .intLoop .., .leave
  | .floatLoop .., .leave | .genericBody .., .leave => s.give []
  | .next todo env, .goto l =>
    match todo.dropWhile (fun
      | .label n => n != l
      | _ => true) with
    | [] => s.leave x
    | rest => s.exec rest env
  | .labelled n todo env, .goto l =>
    if n = l then (s.push (.labelled n todo env)).exec todo env else s.leave x
  | .activation _ outer, .give vs => { s with depth := outer, control := .values vs }
  | .activation site outer, .tail f args =>
    { s with depth := outer, control := .call f args site }
  | .activation _ outer, x => { s with depth := outer, control := .exit x }
  | .guarded .., .raise e => s.give [.bool false, e]
  | .readChunk .., .raise e => s.give [.nil, reported s.heap e]
  | .resumed t wrapped site outer, .raise e =>
    if wrapped then (s.endThread t outer none).raiseAt e site
    else (s.endThread t outer (some e)).give [.bool false, e]
  | .closed outer, .raise e => { s with depth := outer }.give [.bool false, e]
  | .closed outer, _ => { s with depth := outer }.give [.bool true]
  | _, x => s.leave x

inductive Stop where
  | finished (values : List Value)
  | failed (error : Value)

inductive Progress where
  | moved (s : State)
  | stopped (stop : Stop) (heap : Heap)
  /-- The guest waits for an answer of the host. -/
  | asked (question : Question) (s : State)

def step (s : State) : Progress :=
  match s.control with
  | .eval e env => .moved (s.stepEval e env)
  | .exec body env => .moved (s.stepExec body env)
  | .call f args site => .moved (s.stepCall f args site)
  | .index o k site hops => .moved (s.index o k site hops)
  | .setIndex o k v site hops => .moved (s.setIndex o k v site hops)
  | .ask q => .asked q s
  | .values vs =>
    match s.frames with
    | [] => .stopped (.finished vs) s.heap
    | f :: rest => .moved ({ s with frames := rest }.receive f vs)
  | .exit x =>
    match s.frames with
    | f :: rest => .moved ({ s with frames := rest }.unwind f x)
    | [] =>
      match x with
      | .raise e => .stopped (.failed e) s.heap
      | .give vs => .stopped (.finished vs) s.heap
      | .tail f args => .moved { s with control := .call f args none }
      | .leave | .goto _ => .stopped (.finished []) s.heap

/-- Takes steps until the guest stops or asks something; no answer where the fuel runs out. The fuel
that is left comes with the answer. -/
def run : (fuel : Nat) → State → Option (Nat × Progress)
  | 0, _ => none
  | fuel + 1, s =>
    match s.step with
    | .moved s => run fuel s
    | p => some (fuel, p)

end State

end ScriptGate.Lua
