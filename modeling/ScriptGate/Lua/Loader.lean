import ScriptGate.Lua.Operation
import ScriptGate.Lua.Parser
import ScriptGate.Lua.Require

/-!
# Chunks and modules

A chunk becomes a function with one variable, the table of its globals. A required module is made
once: its loader is looked for by the searchers in turn, and what it gives is kept under its name.
-/

namespace ScriptGate.Lua

def displayName (name : Bytes) : Bytes :=
  match name with
  | 0x3D :: r => r.take 59
  | 0x40 :: r => if r.length ≤ 59 then r else Bytes.ofString "..." ++ r.drop (r.length - 56)
  | s =>
    let line := s.takeWhile (· != 0x0A)
    let whole := line.length == s.length && s.length ≤ 44
    Bytes.ofString "[string \"" ++ (if whole then s else line.take 45 ++ Bytes.ofString "...") ++
      Bytes.ofString "\"]"

def ChunkFault.text (f : ChunkFault) (name : Bytes) : Bytes :=
  displayName name ++ Bytes.ofString (":" ++ toString f.line ++ ": " ++ f.message)

def compiledMark : UInt8 := 0x1B

def Heap.load (h : Heap) (text name : Bytes) (globals : Value) : Except Bytes (Value × Heap) :=
  if text.head? = some compiledMark then
    .error (Bytes.ofString "attempt to load a binary chunk (mode is 't')")
  else
    match Chunk.parse text with
    | .error f => .error (f.text name)
    | .ok (.mk parameters takesRest body) =>
      let (cell, h) := h.newCell globals
      .ok (h.newClosure (.function parameters takesRest body [cell] (displayName name)))

namespace State

def loadText (s : State) (text name : Bytes) (globals : Value) : State :=
  match s.heap.load text name globals with
  | .ok (f, h) => { s with control := .values [f], heap := h }
  | .error message => s.give [.nil, .str message]

def refuseLoad (s : State) (number : Nat) (expected : String) (v : Value) : State :=
  let (failure, h) := s.heap.newFailure ("runtime error: bad argument #" ++ toString number ++
    " to 'load' (" ++ expected ++ " expected, got " ++ v.typeName ++ ")")
  { s with heap := h }.raise failure

/-- Loads a chunk whose text is given, or given in pieces by a function. -/
def load (s : State) (args : List Value) : State :=
  let given := args.drop 3 |>.head?
  let globals := given.getD (.table s.heap.globals)
  let name := args.getD 1 .nil
  let source := args.getD 0 .nil
  if !name.isNil && name.toText?.isNone then s.refuseLoad 2 "string" name
  else
    match source.toText?, source with
    | some text, _ => s.loadText text (name.toText?.getD text) globals
    | none, .closure _ | none, .builtin _ | none, .host _ =>
      let name := name.toText?.getD (Bytes.ofString "=(load)")
      (s.push (.readChunk source [] name given)).call source [] none
    | none, _ => s.refuseLoad 1 "function" source

/-! ### Modules -/

/-- Asks for the next of the files in which something is looked for. -/
def openNext (s : State) (todo : List Bytes) (message : Bytes) (load : Option Bytes)
    (site : Option Site) : State :=
  match todo with
  | [] => s.give (if load.isSome then [.str message] else [.nil, .str message])
  | path :: rest =>
    { s with
      control := .ask (.readFile path)
      frames := .opened path rest message load site :: s.frames }

def opened (s : State) (content : Value) (path : Bytes) (todo : List Bytes) (message : Bytes)
    (load : Option Bytes) (site : Option Site) : State :=
  match content, load with
  | .str text, some name =>
    match s.heap.load (Require.chunkText text) (0x40 :: path) (.table s.heap.globals) with
    | .ok (f, h) => { s with control := .values [f, .str path], heap := h }
    | .error e =>
      s.raise (.str (State.position site ++ Bytes.ofString "error loading module '" ++ name ++
        Bytes.ofString "' from file '" ++ path ++ Bytes.ofString "':\n\t" ++ e))
  | .str _, none => s.give [.str path]
  | _, load => s.openNext todo (message ++ Require.noFile path) load site

/-- Looks for a module in the files of `package.path`. -/
def searchFiles (s : State) (name : Bytes) (site : Option Site) : State :=
  match s.heap.member s.heap.package "path" with
  | .str path => s.openNext (Require.moduleCandidates path name) [] (some name) site
  | _ => s.fail site "'package.path' must be a string"

/-- Looks for a module among the loaders given beforehand. -/
def searchPreload (s : State) (name : Bytes) : State :=
  match s.heap.rawGet s.heap.preload (.str name) with
  | .nil =>
    s.give [.str (Bytes.ofString "\n\tno field package.preload['" ++ name ++ Bytes.ofString "']")]
  | loader => s.give [loader, .text ":preload:"]

def searchNext (s : State) (name : Bytes) (next : Nat) (message : Bytes) (site : Option Site) :
    State :=
  match s.heap.member s.heap.package "searchers" with
  | .table place =>
    match s.heap.rawGet place (.ofNat next) with
    | .nil =>
      s.raise (.str (State.position site ++ Bytes.ofString "module '" ++ name ++
        Bytes.ofString "' not found:" ++ message))
    | searcher => (s.push (.searched name (next + 1) message site)).call searcher [.str name] none
  | _ => s.fail site "'package.searchers' must be a table"

def searched (s : State) (vs : List Value) (name : Bytes) (next : Nat) (message : Bytes)
    (site : Option Site) : State :=
  match vs with
  | loader :: rest =>
    match loader with
    | .closure _ | .builtin _ | .host _ =>
      let data := rest.headD .nil
      (s.push (.made name data site)).call loader [.str name, data] none
    | .str more => s.searchNext name next (message ++ more) site
    | _ => s.searchNext name next message site
  | [] => s.searchNext name next message site

def require (s : State) (name : Bytes) (site : Option Site) : State :=
  let name := Require.untilZero name
  (s.push (.wanted name site)).index (.table s.heap.loaded) (.str name) site 0

/-- Goes on with what is kept under the name of a module. -/
def wanted (s : State) (v : Value) (name : Bytes) (site : Option Site) : State :=
  if v.isTrue then s.give [v] else s.searchNext name 1 [] site

def made (s : State) (v : Value) (name : Bytes) (data : Value) (site : Option Site) : State :=
  let s := s.push (.stored name data site)
  if v.isNil then s.give [] else s.setIndex (.table s.heap.loaded) (.str name) v site 0

/-- Gives what is kept under the name of a module, true where a loader has kept nothing. -/
def stored (s : State) (name : Bytes) (data : Value) (site : Option Site) : State :=
  let keep (s : State) : State :=
    match s.heap.rawGet s.heap.loaded (.str name) with
    | .nil => { s with heap := s.heap.rawSet s.heap.loaded (.str name) (.bool true) }
    | _ => s
  let s := keep s
  (s.push (.found data)).index (.table s.heap.loaded) (.str name) site 0

end State

end ScriptGate.Lua
