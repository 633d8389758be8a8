import ScriptGate.Lua.Library.Arithmetic
import ScriptGate.Lua.Library.Clock
import ScriptGate.Lua.Library.Collection
import ScriptGate.Lua.Library.Format
import ScriptGate.Lua.Library.Text
import ScriptGate.Lua.Library.Unicode
import ScriptGate.Lua.Loader

/-!
# Library functions

What a call of a library function does to a guest.
-/

namespace ScriptGate.Lua

open Library

def Builtin.name : Builtin → String
  | .assert => "assert" | .collectgarbage => "collectgarbage" | .error => "error"
  | .getmetatable => "getmetatable" | .ipairs => "ipairs" | .ipairsStep => "ipairs_iterator"
  | .load => "load" | .next => "next" | .pairs => "pairs" | .pcall => "pcall"
  | .rawequal => "rawequal" | .rawget => "rawget" | .rawlen => "rawlen" | .rawset => "rawset"
  | .require => "require" | .select => "select" | .setmetatable => "setmetatable"
  | .tonumber => "tonumber" | .tostring => "tostring" | .type => "type" | .warn => "warn"
  | .xpcall => "xpcall" | .preloadSearcher | .fileSearcher | .noSearcher => "searcher"
  | .searchpath => "searchpath" | .coroutineClose => "close" | .coroutineCreate => "create"
  | .coroutineIsYieldable => "isyieldable" | .coroutineResume => "resume"
  | .coroutineRunning => "running" | .coroutineStatus => "status" | .coroutineWrap => "wrap"
  | .coroutineYield => "yield" | .mathAbs => "abs" | .mathAcos => "acos" | .mathAsin => "asin"
  | .mathAtan => "atan" | .mathCeil => "ceil" | .mathCos => "cos" | .mathDeg => "deg"
  | .mathExp => "exp" | .mathFloor => "floor" | .mathFmod => "fmod" | .mathLog => "log"
  | .mathMax => "max" | .mathMin => "min" | .mathModf => "modf" | .mathRad => "rad"
  | .mathRandom => "random" | .mathRandomseed => "randomseed" | .mathSin => "sin"
  | .mathSqrt => "sqrt" | .mathTan => "tan" | .mathToInteger => "tointeger" | .mathType => "type"
  | .mathUlt => "ult" | .osClock => "clock" | .osDate => "date" | .osDifftime => "difftime"
  | .osTime => "time" | .stringByte => "byte" | .stringChar => "char" | .stringDump => "dump"
  | .stringFind => "find" | .stringFormat => "format" | .stringGmatch => "gmatch"
  | .stringGsub => "gsub" | .stringLen => "len" | .stringLower => "lower"
  | .stringMatch => "match" | .stringRep => "rep" | .stringReverse => "reverse"
  | .stringSub => "sub" | .stringUpper => "upper" | .tableConcat => "concat"
  | .tableInsert => "insert" | .tableMove => "move" | .tablePack => "pack"
  | .tableRemove => "remove" | .tableSort => "sort" | .tableUnpack => "unpack"
  | .utf8Char => "char" | .utf8Codepoint => "codepoint" | .utf8Codes => "codes"
  | .utf8CodesStep => "codes_iterator" | .utf8Len => "len" | .utf8Offset => "offset"

/-- The text of a value where no metamethod gives one. -/
def plainText (h : Heap) (v : Value) : Bytes :=
  let address (kind : String) (n : Nat) : Bytes :=
    let ds := Nat.toDigits 16 (0x55d000000000 + 64 * n)
    Bytes.ofString (kind ++ ": 0x" ++ String.ofList (List.replicate (14 - ds.length) '0' ++ ds))
  match v with
  | .nil => Bytes.ofString "nil"
  | .bool b => Bytes.ofString (if b then "true" else "false")
  | .number n => Bytes.ofString n.text
  | .str s => s
  | .table p => address "table" p
  | .closure p => address "function" p
  | .builtin f => address "function" (0x100000 + f.ctorIdx)
  | .host f => address "function" (0x200000 + f.ctorIdx)
  | .thread p => address "thread" p
  | .object (.failure n) => Bytes.ofString (h.failures.getD n "")
  | .object (.connection n) | .object (.write n) => address "userdata" n
  | .null => Bytes.ofString "userdata: (nil)"
  | .pointer n => address "userdata" n

namespace State

def pure_ (s : State) (r : Result (List Value)) (site : Option Site) : State :=
  match r with
  | .ok vs => s.give vs
  | .error m => s.fail site m

def effect (s : State) (r : Collection.Effect) (site : Option Site) : State :=
  match r with
  | .ok (vs, h) => { s with heap := h, control := .values vs }
  | .error m => s.fail site m

/-- The place where the function was called that a frame belongs to, if it is one of a call. -/
def callSite? : Frame → Option (Option Site)
  | .activation site _ | .guarded _ site | .sort _ _ _ site | .replace _ _ _ site => some site
  | .handled => some none
  | _ => none

/-- The place where the function was called that is `levels` calls further out. -/
def siteAbove (frames : List Frame) (levels : Nat) : Option Site :=
  ((frames.filterMap callSite?)[levels]?).join

def raiseAt (s : State) (error : Value) (site : Option Site) : State :=
  match error with
  | .str text => s.raise (.str (position site ++ text))
  | v => s.raise v

def error (s : State) (a : Args) (site : Option Site) : State :=
  match a.intOr 1 1 with
  | .error m => s.fail site m
  | .ok level =>
    s.raiseAt (a.get 0) (if level ≤ 0 then none else if level = 1 then site
      else siteAbove s.frames (level - 2).toNat)

def assert (s : State) (a : Args) (site : Option Site) : State :=
  match a.values with
  | [] => s.fail site "bad argument #1 to 'assert' (value expected)"
  | v :: rest =>
    if v.isTrue then s.give a.values else s.raiseAt (rest.headD (.text "assertion failed!")) site

def setmetatable (s : State) (a : Args) (site : Option Site) : State :=
  let go : Result State := do
    let t ← a.table 0
    let m ← match a.get 1 with
      | .nil => if a.values.length < 2 then a.wrongType 1 "nil or table" else pure none
      | .table m => pure (some m)
      | _ => a.wrongType 1 "nil or table"
    if !(s.heap.metamethod (.table t) "__metatable").isNil then
      .error "cannot change a protected metatable"
    else
      let h := s.heap.modifyTable t fun t => { t with metatable := m }
      return { s with heap := h, control := .values [.table t] }
  match go with
  | .ok s => s
  | .error m => s.fail site m

def getmetatable (s : State) (a : Args) : State :=
  match a.get 0 with
  | .object _ => s.give [.bool false]
  | v =>
    match s.heap.metatable? v with
    | none => s.give [.nil]
    | some m =>
      match s.heap.member m "__metatable" with
      | .nil => s.give [.table m]
      | shown => s.give [shown]

def select (s : State) (a : Args) (site : Option Site) : State :=
  match a.get 0 with
  | .str [0x23] => s.give [.ofNat (a.values.length - 1)]
  | _ =>
    match a.int 0 with
    | .error m => s.fail site m
    | .ok i =>
      let rest := a.values.drop 1
      if 0 < i then s.give (rest.drop (i - 1).toNat)
      else if i < 0 ∧ i.natAbs ≤ rest.length then s.give (rest.drop (rest.length - i.natAbs))
      else s.fail site "bad argument #1 to 'select' (index out of range)"

def digitsToBase (base : Nat) (s : Bytes) : Option Int64 :=
  let trimmed := (s.dropWhile Number.isSpace).reverse.dropWhile Number.isSpace |>.reverse
  let (negative, ds) := match trimmed with
    | 0x2D :: r => (true, r)
    | ds => (false, ds)
  let value (b : UInt8) : Option Nat :=
    let l := Pattern.toLower b
    let n := if Number.isDigit b then b.toNat - 0x30
      else if Pattern.isAlpha b then l.toNat - 0x57 else base
    if n < base then some n else none
  if ds = [] then none
  else (ds.mapM value).map fun vs =>
    let n := Int64.ofNat (Number.ofDigits base vs)
    if negative then -n else n

def tonumber (s : State) (a : Args) (site : Option Site) : State :=
  if (a.get 1).isNil then
    match a.values with
    | [] => s.fail site "bad argument #1 to 'tonumber' (value expected)"
    | v :: _ => s.give [match v.toNumber? with
      | some n => .number n
      | none => .nil]
  else
    match a.int 1, a.get 0 with
    | .error m, _ => s.fail site m
    | .ok base, .str t =>
      if base < 2 ∨ 36 < base then
        s.fail site "bad argument #2 to 'tonumber' (base out of range)"
      else s.give [match digitsToBase base.toNat t with
        | some i => .int i
        | none => .nil]
    | .ok _, _ => s.pure_ (a.wrongType 0 "string") site

/-- The text of a value where no function gives one; a metatable may name its kind. -/
def namedText (h : Heap) (v : Value) : Bytes :=
  match v, h.metamethod v "__name" with
  | .table p, .str name => name ++ (plainText h (.table p)).drop 5
  | v, _ => plainText h v

def tostring (s : State) (a : Args) (site : Option Site) : State :=
  match a.values with
  | [] => s.fail site "bad argument #1 to 'tostring' (value expected)"
  | v :: _ =>
    match s.heap.metamethod v "__tostring" with
    | .nil => s.give [.str (namedText s.heap v)]
    | m => (s.push .checkedText).call m [v] site

/-- Formats values. Those with a function for their text are replaced by it first. -/
def format (s : State) (done : List Value) (site : Option Site) : (todo : List Value) → State
  | [] => s.pure_ (Format.format (namedText s.heap) ⟨"format", done.reverse⟩) site
  | v :: todo =>
    match s.heap.metamethod v "__tostring" with
    | .nil => s.format (v :: done) site todo
    | m => ((s.push (.formatted done todo site)).push .checkedText).call m [v] site

def next (s : State) (a : Args) (site : Option Site) : State :=
  match a.table 0 with
  | .error m => s.fail site m
  | .ok t =>
    let key := (a.get 1).key?.getD .nil
    match (s.heap.table t).next key with
    | none => s.fail site "invalid key to 'next'"
    | some none => s.give [.nil]
    | some (some (k, v)) => s.give [k, v]

def pairs (s : State) (a : Args) (site : Option Site) : State :=
  match a.values with
  | [] => s.pure_ (a.wrongType 0 "table") site
  | v :: _ =>
    match s.heap.metamethod v "__pairs" with
    | .nil => s.give [.builtin .next, v, .nil]
    | m => (s.push .threePlaces).call m [v] site

/-- The option of a call about storage that the guest has no use for. -/
def collectgarbage (s : State) (a : Args) (site : Option Site) : State :=
  match a.textOr 0 (Bytes.ofString "collect") with
  | .error m => s.fail site m
  | .ok t =>
    match t.toString? with
    | some "collect" | some "stop" | some "restart" | some "setpause" | some "setstepmul" =>
      s.give [.ofNat 0]
    | some "count" => s.give [.float (Binary64.ofInt (64 + s.heap.tables.size / 8))]
    | some "step" => s.give [.bool true]
    | some "isrunning" => s.give [.bool true]
    | some "generational" | some "incremental" => s.give [.text "incremental"]
    | _ => s.fail site "bad argument #1 to 'collectgarbage' (invalid option)"

def rawset (s : State) (a : Args) (site : Option Site) : State :=
  match a.table 0, (a.get 1).key? with
  | .error m, _ => s.fail site m
  | .ok _, none =>
    s.fail site (if (a.get 1).isNil then "table index is nil" else "table index is NaN")
  | .ok t, some key =>
    { s with heap := s.heap.rawSet t key (a.get 2), control := .values [.table t] }

/-! ### Coroutines -/

def createThread (s : State) (a : Args) (site : Option Site) : Except State (Nat × State) :=
  match a.callable 0 with
  | .error m => .error (s.fail site m)
  | .ok f =>
    let (t, h) := s.heap.newThread { status := .suspended, start := some f }
    .ok (t, { s with heap := h })

def threadArg (s : State) (a : Args) (site : Option Site) (go : Nat → State) : State :=
  match a.get 0 with
  | .thread t => go t
  | _ => s.pure_ (a.wrongType 0 "coroutine") site

def statusName : Status → String
  | .suspended => "suspended"
  | .running => "running"
  | .normal => "normal"
  | .dead => "dead"

def close (s : State) (t : Nat) (site : Option Site) : State :=
  match s.heap.threads[t]? with
  | none => s.give [.bool true]
  | some th =>
    if th.status = .suspended ∨ th.status = .dead then s.closeThread t th
    else s.fail site ("cannot close a " ++ statusName th.status ++ " coroutine")

/-! ### Sorting and replacing -/

def sortOn (s : State) (m : Merge) (place : Nat) (comparator : Value) (site : Option Site) :
    State :=
  match Collection.sortStep 16 m with
  | .sorted vs => { s with heap := Collection.putAll s.heap place vs, control := .values [] }
  | .compare m x y =>
    let s := s.push (.sort m place comparator site)
    match comparator with
    | .nil => s.ordered true x y site
    | f => s.call f [x, y] site

def sort (s : State) (a : Args) (site : Option Site) : State :=
  let go : Result State := do
    let t ← a.table 0
    let comparator ← if (a.get 1).isNil then pure .nil else a.callable 1
    return s.sortOn (Collection.mergeOf (Collection.values s.heap t)) t comparator site
  match go with
  | .ok s => s
  | .error m => s.fail site m

def replaceOn (s : State) (r : Replacement) (last : Option Nat) (site : Option Site) : State :=
  match Text.replaceStep r last (Text.replaceFuel r) with
  | .error m => s.fail site m
  | .ok (.done r) => s.give [.str r.out.toList, .ofNat r.count]
  | .ok (.ask r caps whole stop) =>
    let s := s.push (.replace r whole stop site)
    match r.replace with
    | .table p => s.index (.table p) (caps.headD .nil) site 0
    | f => s.call f caps site

def replaced (s : State) (v : Value) (r : Replacement) (whole : Bytes) (stop : Nat)
    (site : Option Site) : State :=
  match Text.answer r v whole with
  | .error m => s.fail site m
  | .ok r =>
    if r.anchored then
      s.give [.str (r.out ++ r.src.extract r.at_ r.src.size).toList, .ofNat r.count]
    else s.replaceOn r (some stop) site

def gsub (s : State) (a : Args) (site : Option Site) : State :=
  match Text.replacement a with
  | .error m => s.fail site m
  | .ok r => s.replaceOn r none site

def gmatch (s : State) (a : Args) (site : Option Site) : State :=
  let go : Result State := do
    let src := (← a.text 0).toArray
    let pat := (← a.text 1).toArray
    let start := Text.startAt (← a.intOr 2 1) src.size - 1
    let (f, h) := s.heap.newClosure (.matcher src pat (min start (src.size + 1)) none)
    return { s with heap := h, control := .values [f] }
  match go with
  | .ok s => s
  | .error m => s.fail site m

def nextMatch (s : State) (place : Nat) (src pat : Array UInt8) (at_ : Nat) (lastEnd : Option Nat)
    (site : Option Site) : State :=
  match Text.nextMatch src pat lastEnd at_ (src.size + 1 - at_) with
  | .error m => s.fail site m
  | .ok none => s.give [.nil]
  | .ok (some (vs, stop)) =>
    let h := { s.heap with
      closures := s.heap.closures.setIfInBounds place (.matcher src pat stop (some stop)) }
    { s with heap := h, control := .values vs }

/-! ### The clock -/

def date (s : State) (a : Args) (site : Option Site) : State :=
  let go : Result State := do
    let format ← a.textOr 0 (Bytes.ofString "%c")
    let t ← a.intOr 1 s.heap.clock
    let d := Clock.ofSeconds t
    let format := match format with
      | 0x21 :: r => r
      | f => f
    if (Bytes.ofString "*t").isPrefixOf format then
      let (v, s) := s.newTable (Table.ofEntries (Clock.members d))
      return s.give [v]
    else
      let text ← Clock.format d (Format.ofBytes format)
      return s.give [.str (Bytes.ofString (String.ofList text))]
  match go with
  | .ok s => s
  | .error m => s.fail site m

def time (s : State) (a : Args) (site : Option Site) : State :=
  match a.get 0 with
  | .nil => s.give [.int (Int64.ofInt s.heap.clock)]
  | .table t =>
    match Clock.ofMembers fun name => s.heap.member t name with
    | .ok i => s.give [.int (Int64.ofInt i)]
    | .error m => s.fail site m
  | _ => s.pure_ (a.wrongType 0 "table") site

def draw (s : State) : UInt64 × State :=
  let r := Arithmetic.advance s.heap.random
  (Arithmetic.mix r, { s with heap := { s.heap with random := r } })

/-! ### All functions -/

def builtin (s : State) (f : Builtin) (args : List Value) (site : Option Site) : State :=
  let a : Args := ⟨f.name, args⟩
  let plain (r : Result (List Value)) : State := s.pure_ r site
  match f with
  | .assert => s.assert a site
  | .collectgarbage => s.collectgarbage a site
  | .error => s.error a site
  | .getmetatable => s.getmetatable a
  | .ipairs => plain do return [.builtin .ipairsStep, ← a.any 0, .ofNat 0]
  | .ipairsStep =>
    match a.int64 1 with
    | .error m => s.fail site m
    | .ok i => (s.push (.counted (i + 1))).index (a.get 0) (.int (i + 1)) site 0
  | .load => s.load args
  | .next => s.next a site
  | .pairs => s.pairs a site
  | .pcall =>
    match args with
    | [] => s.fail none "not enough arguments to pcall"
    | f :: rest => (s.push (.guarded none site)).call f rest none
  | .xpcall =>
    match args with
    | f :: handler :: rest =>
      (s.push (.guarded (some handler) site)).call f rest none
    | _ => s.fail none "not enough arguments to xpcall"
  | .rawequal => plain do return [.bool ((← a.any 0).rawEq (← a.any 1))]
  | .rawget => plain do return [s.heap.rawGet (← a.table 0) (a.get 1)]
  | .rawlen =>
    match a.get 0 with
    | .table t => s.give [.ofNat (s.heap.table t).length]
    | .str t => s.give [.ofNat t.length]
    | _ => s.fail site "table or string expected"
  | .rawset => s.rawset a site
  | .require =>
    match a.text 0 with
    | .ok name => s.require name site
    | .error m => s.fail site m
  | .select => s.select a site
  | .setmetatable => s.setmetatable a site
  | .tonumber => s.tonumber a site
  | .tostring => s.tostring a site
  | .type => plain do return [.text (← a.any 0).typeName]
  | .warn => s.give []
  | .preloadSearcher =>
    match a.text 0 with
    | .ok name => s.searchPreload (Require.untilZero name)
    | .error m => s.fail site m
  | .fileSearcher =>
    match a.text 0 with
    | .ok name => s.searchFiles (Require.untilZero name) site
    | .error m => s.fail site m
  | .noSearcher => s.give [.text "\n\tcompiled modules are not loaded"]
  | .searchpath =>
    let read : Result (List Bytes) := do
      let file := Require.fileName (← a.text 0) (← a.textOr 2 [Require.dot])
        (← a.textOr 3 [Require.slash])
      return Require.candidates (← a.text 1) file
    match read with
    | .ok files => s.openNext files [] none site
    | .error m => s.fail site m
  | .coroutineCreate =>
    match s.createThread a site with
    | .ok (t, s) => s.give [.thread t]
    | .error s => s
  | .coroutineWrap =>
    match s.createThread a site with
    | .ok (t, s) =>
      let (f, h) := s.heap.newClosure (.wrapped t)
      { s with heap := h, control := .values [f] }
    | .error s => s
  | .coroutineResume => s.threadArg a site fun t => s.resume t (args.drop 1) false site
  | .coroutineYield => s.yield_ args
  | .coroutineStatus => s.threadArg a site fun t =>
    s.give [.text (statusName ((s.heap.threads[t]?).elim .dead (·.status)))]
  | .coroutineIsYieldable => s.give [.bool (canYield s.frames)]
  | .coroutineRunning =>
    match current? s.frames with
    | some t => s.give [.thread t, .bool false]
    | none => s.give [.thread 0, .bool true]
  | .coroutineClose => s.threadArg a site fun t => s.close t site
  | .mathAbs => plain (Arithmetic.abs a)
  | .mathAcos => plain (Arithmetic.machine Float.acos a)
  | .mathAsin => plain (Arithmetic.machine Float.asin a)
  | .mathAtan => plain (Arithmetic.atan a)
  | .mathCeil => plain (Arithmetic.ceil a)
  | .mathCos => plain (Arithmetic.machine Float.cos a)
  | .mathDeg => plain (Arithmetic.machine (· * (180.0 / 3.141592653589793)) a)
  | .mathExp => plain (Arithmetic.machine Float.exp a)
  | .mathFloor => plain (Arithmetic.floor a)
  | .mathFmod => plain (Arithmetic.fmod a)
  | .mathLog => plain (Arithmetic.log a)
  | .mathMax => plain (Arithmetic.extreme (fun n best => best.lt n) a)
  | .mathMin => plain (Arithmetic.extreme (fun n best => n.lt best) a)
  | .mathModf => plain (Arithmetic.modf a)
  | .mathRad => plain (Arithmetic.machine (· * (3.141592653589793 / 180.0)) a)
  | .mathRandom =>
    let (r, s) := s.draw
    s.pure_ (Arithmetic.random r a) site
  | .mathRandomseed =>
    { s with
      control := .values []
      heap := { s.heap with random := UInt64.ofNat ((a.get 0).toInt?.elim 0 (·.toUInt64.toNat)) } }
  | .mathSin => plain (Arithmetic.machine Float.sin a)
  | .mathSqrt => plain (Arithmetic.machine Float.sqrt a)
  | .mathTan => plain (Arithmetic.machine Float.tan a)
  | .mathToInteger => plain (Arithmetic.toInteger a)
  | .mathType => plain (Arithmetic.type a)
  | .mathUlt => plain (Arithmetic.ult a)
  | .osClock => s.give [.float (Binary64.ofDecimal 1 (-2))]
  | .osDate => s.date a site
  | .osDifftime => plain do return [.float ((← a.float 0).sub (← a.float 1))]
  | .osTime => s.time a site
  | .stringByte => plain (Text.byte a)
  | .stringChar => plain (Text.char a)
  | .stringDump => plain (Text.dump a)
  | .stringFind => plain (Text.find a)
  | .stringFormat => s.format [] site args
  | .stringGmatch => s.gmatch a site
  | .stringGsub => s.gsub a site
  | .stringLen => plain (Text.len a)
  | .stringLower => plain (Text.lower a)
  | .stringMatch => plain (Text.match a)
  | .stringRep => plain (Text.rep a)
  | .stringReverse => plain (Text.reverse a)
  | .stringSub => plain (Text.sub a)
  | .stringUpper => plain (Text.upper a)
  | .tableConcat => s.effect (Collection.concat s.heap a) site
  | .tableInsert => s.effect (Collection.insert s.heap a) site
  | .tableMove => s.effect (Collection.move s.heap a) site
  | .tablePack => s.effect (Collection.pack s.heap a) site
  | .tableRemove => s.effect (Collection.remove s.heap a) site
  | .tableSort => s.sort a site
  | .tableUnpack => s.effect (Collection.unpack s.heap a) site
  | .utf8Char => plain (Unicode.char a)
  | .utf8Codepoint => plain (Unicode.codepoint a)
  | .utf8Codes => plain do return [.builtin .utf8CodesStep, .str (← a.text 0), .ofNat 0]
  | .utf8CodesStep => plain (Unicode.next a)
  | .utf8Len => plain (Unicode.len a)
  | .utf8Offset => plain (Unicode.offset a)

end State

end ScriptGate.Lua
