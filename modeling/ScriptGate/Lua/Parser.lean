import ScriptGate.Lua.Lexeme
import ScriptGate.Lua.Syntax

/-!
# Reading chunks

`Chunk.parse` turns the text of a chunk into its tree. Names are resolved on the way: a name in
scope becomes the number of variables declared after it, any other a member of the table of globals.
-/

namespace ScriptGate.Lua

namespace Parser

structure Variable where
  name : Bytes
  constant : Bool := false

/-- What is known where a part of a chunk is read. -/
structure Scope where
  locals : List Variable
  /-- Whether the function takes surplus arguments. -/
  takesRest : Bool
  /-- Whether a variable that is closed at the end is in scope. -/
  closing : Bool := false
  inLoop : Bool := false
  level : Nat := 0

def globalsName : Bytes := "_ENV"

def Scope.add (s : Scope) (v : Variable) : Scope := { s with locals := v :: s.locals }

def Scope.addAll (s : Scope) (names : List Bytes) : Scope :=
  names.foldl (fun s n => s.add { name := n }) s

def Scope.find? (s : Scope) (name : Bytes) : Option Nat :=
  s.locals.findIdx? fun v => v.name == name

def maxLevel : Nat := 195

abbrev Lexemes := List Located

/-- What a reader gives, mostly together with the lexemes behind it. -/
abbrev Read := Except ChunkFault

def peek : Lexemes → Lexeme
  | [] => .ending
  | t :: _ => t.lexeme

def lineOf : Lexemes → Nat
  | [] => 0
  | t :: _ => t.line

def shown : Lexeme → String
  | .name s | .str s => (s.toString?).getD "?"
  | .symbol s => s
  | .number n => n.text
  | .ending => "<eof>"

def fail {α : Type} (message : String) (ts : Lexemes) : Read α :=
  .error ⟨message ++ " near '" ++ shown (peek ts) ++ "'", lineOf ts⟩

def isSymbol (s : String) (ts : Lexemes) : Bool := peek ts == .symbol s

def expect (s : String) (ts : Lexemes) : Read Lexemes :=
  if isSymbol s ts then .ok (ts.drop 1) else fail ("'" ++ s ++ "' expected") ts

def name (ts : Lexemes) : Read (Bytes × Lexemes) :=
  match ts with
  | ⟨.name s, _⟩ :: rest => .ok (s, rest)
  | _ => fail "<name> expected" ts

def openBrace : String := "\x7b"
def closeBrace : String := "\x7d"

/-- The operator of a symbol between two operands, with its strength to the left and to the right.
`and` and `or` have none. -/
def binary? : String → Option (Option Binary × Nat × Nat)
  | "or" => some (none, 1, 1)
  | "and" => some (none, 2, 2)
  | "<" => some (some .lt, 3, 3)
  | ">" => some (some .gt, 3, 3)
  | "<=" => some (some .le, 3, 3)
  | ">=" => some (some .ge, 3, 3)
  | "~=" => some (some .ne, 3, 3)
  | "==" => some (some .eq, 3, 3)
  | "|" => some (some (.number .bor), 4, 4)
  | "~" => some (some (.number .bxor), 5, 5)
  | "&" => some (some (.number .band), 6, 6)
  | "<<" => some (some (.number .shl), 7, 7)
  | ">>" => some (some (.number .shr), 7, 7)
  | ".." => some (some .concat, 9, 8)
  | "+" => some (some (.number .add), 10, 10)
  | "-" => some (some (.number .sub), 10, 10)
  | "*" => some (some (.number .mul), 11, 11)
  | "/" => some (some (.number .div), 11, 11)
  | "//" => some (some (.number .idiv), 11, 11)
  | "%" => some (some (.number .mod), 11, 11)
  | "^" => some (some (.number .pow), 14, 13)
  | _ => none

def unary? : String → Option Unary
  | "not" => some .not
  | "-" => some .minus
  | "~" => some .complement
  | "#" => some .length
  | _ => none

def unaryStrength : Nat := 12

def endsBlock (ts : Lexemes) : Bool :=
  match peek ts with
  | .ending => true
  | .symbol s => ["else", "elseif", "end", "until"].contains s
  | _ => false

def ofName (scope : Scope) (name : Bytes) (line : Nat) : Expr :=
  match scope.find? name with
  | some i => .variable i
  | none => .index (.variable ((scope.find? globalsName).getD 0)) (.str name) line

def isCall : Expr → Bool
  | .call .. | .method .. => true
  | _ => false

def isConstant (scope : Scope) : Expr → Bool
  | .variable i => (scope.locals[i]?).any (·.constant)
  | _ => false

def isAssignable : Expr → Bool
  | .variable _ | .index .. => true
  | _ => false

def names (fuel : Nat) (ts : Lexemes) : Read (List Bytes × Lexemes) :=
  match fuel with
  | 0 => fail "chunk too long" ts
  | fuel + 1 => do
    let (n, ts) ← name ts
    if isSymbol "," ts then
      let (ns, ts) ← names fuel (ts.drop 1)
      .ok (n :: ns, ts)
    else .ok ([n], ts)

/-- Parameters up to the closing parenthesis; the flag says whether surplus arguments are taken. -/
def parameters (fuel : Nat) (ts : Lexemes) : Read ((List Bytes × Bool) × Lexemes) :=
  match fuel with
  | 0 => fail "chunk too long" ts
  | fuel + 1 => do
    if isSymbol "..." ts then
      let ts ← expect ")" (ts.drop 1)
      .ok (([], true), ts)
    else
      let (n, ts) ← name ts
      if isSymbol "," ts then
        let ((ns, rest), ts) ← parameters fuel (ts.drop 1)
        .ok ((n :: ns, rest), ts)
      else
        let ts ← expect ")" ts
        .ok (([n], false), ts)

inductive Attribute where
  | plain
  | constant
  | closing
  deriving DecidableEq

def declared (fuel : Nat) (ts : Lexemes) : Read (List (Bytes × Attribute) × Lexemes) :=
  match fuel with
  | 0 => fail "chunk too long" ts
  | fuel + 1 => do
    let (n, ts) ← name ts
    let (kind, ts) ←
      if isSymbol "<" ts then do
        let (a, rest) ← name (ts.drop 1)
        let rest ← expect ">" rest
        if a = Bytes.ofString "const" then pure (Attribute.constant, rest)
        else if a = Bytes.ofString "close" then pure (Attribute.closing, rest)
        else fail "unknown attribute" ts
      else pure (Attribute.plain, ts)
    if isSymbol "," ts then do
      let (more, ts) ← declared fuel (ts.drop 1)
      return ((n, kind) :: more, ts)
    else return ([(n, kind)], ts)

/-! ### Jumps -/

def isLabel : Stat → Bool
  | .label _ => true
  | _ => false

def labels (body : List Stat) : List Bytes :=
  body.filterMap fun
    | .label n => some n
    | _ => none

def opensScope : Stat → Bool
  | .locals .. | .localFunction _ => true
  | _ => false

/-- Whether a label lies in the scope of a variable of these statements. One behind which there is
nothing but labels lies outside. -/
def entersScope (body : List Stat) (n : Bytes) : Bool :=
  let (before, after) := body.span fun
    | .label m => m != n
    | _ => true
  before.any opensScope && !after.all isLabel

/-- The labels that the jumps of a block go to, those of the block itself aside. -/
def leaving (body : List Stat) (out : Except String (List Bytes)) : Except String (List Bytes) :=
  out.map fun ns => ns.filter fun n => !(labels body).contains n

mutual

/-- The labels that the jumps of a statement go to, outside it. `seen` holds the labels in sight. -/
def jumps (seen : List Bytes) : Stat → Except String (List Bytes)
  | .goto n => .ok [n]
  | .block body | .whileDo _ body | .repeatUntil body | .numericFor _ _ _ body _
  | .genericFor _ _ body _ => leaving body (allJumps seen body)
  | .ifThen _ body other => do
    return (← leaving body (allJumps seen body)) ++ (← leaving other (allJumps seen other))
  | _ => .ok []

def allJumps (seen : List Bytes) : List Stat → Except String (List Bytes)
  | [] => .ok []
  | .label n :: rest =>
    if seen.contains n then .error "label already defined" else allJumps (n :: seen) rest
  | s :: rest => do
    let out ← jumps seen s
    let ahead := labels rest
    if out.any fun n => ahead.contains n && entersScope rest n then
      .error "jump into the scope of a variable"
    else return out ++ (← allJumps seen rest)

end

/-- Refuses the body of a function with a jump that leads nowhere. -/
def checkJumps (body : List Stat) (ts : Lexemes) : Read Unit :=
  match leaving body (allJumps [] body) with
  | .error message => fail message ts
  | .ok [] => .ok ()
  | .ok (_ :: _) => fail "no visible label for goto" ts

/-! ### Expressions and statements -/

mutual

/-- Reads an expression of operators that bind more strongly than `strength`. -/
def operation (fuel : Nat) (scope : Scope) (strength : Nat) (ts : Lexemes) :
    Read (Expr × Lexemes) :=
  match fuel with
  | 0 => fail "chunk too long" ts
  | fuel + 1 => do
    if maxLevel ≤ scope.level then fail "chunk has too many syntax levels" ts
    else
      let scope := { scope with level := scope.level + 1 }
      let unaryOp := match peek ts with
        | .symbol s => unary? s
        | _ => none
      let (left, ts) ← match unaryOp with
        | some op => do
          let (e, rest) ← operation fuel scope unaryStrength (ts.drop 1)
          pure (Expr.unary op e (lineOf ts), rest)
        | none => simple fuel scope ts
      operators fuel scope strength left ts

def operators (fuel : Nat) (scope : Scope) (strength : Nat) (left : Expr) (ts : Lexemes) :
    Read (Expr × Lexemes) :=
  match fuel with
  | 0 => fail "chunk too long" ts
  | fuel + 1 => do
    match peek ts with
    | .symbol s =>
      match binary? s with
      | none => .ok (left, ts)
      | some (op, toLeft, toRight) =>
        if toLeft ≤ strength then .ok (left, ts)
        else
          let (right, rest) ← operation fuel scope toRight (ts.drop 1)
          let whole := match op with
            | some op => .binary op left right (lineOf ts)
            | none => if s = "and" then .and left right else .or left right
          operators fuel scope strength whole rest
    | _ => .ok (left, ts)

def simple (fuel : Nat) (scope : Scope) (ts : Lexemes) : Read (Expr × Lexemes) :=
  match fuel with
  | 0 => fail "chunk too long" ts
  | fuel + 1 => do
    match ts with
    | ⟨.number n, _⟩ :: rest => .ok (.number n, rest)
    | ⟨.str s, _⟩ :: rest => .ok (.str s, rest)
    | ⟨.symbol "nil", _⟩ :: rest => .ok (.nil, rest)
    | ⟨.symbol "true", _⟩ :: rest => .ok (.bool true, rest)
    | ⟨.symbol "false", _⟩ :: rest => .ok (.bool false, rest)
    | ⟨.symbol "...", _⟩ :: rest =>
      if scope.takesRest then .ok (.rest, rest)
      else fail "cannot use '...' outside a vararg function" ts
    | ⟨.symbol "function", _⟩ :: rest =>
      let (f, rest) ← functionBody fuel scope false rest
      .ok (.function f, rest)
    | _ => if isSymbol openBrace ts then table fuel scope ts else suffixed fuel scope ts

def suffixed (fuel : Nat) (scope : Scope) (ts : Lexemes) : Read (Expr × Lexemes) :=
  match fuel with
  | 0 => fail "chunk too long" ts
  | fuel + 1 => do
    match ts with
    | ⟨.name n, line⟩ :: rest => suffixes fuel scope (ofName scope n line) rest
    | ⟨.symbol "(", _⟩ :: rest =>
      let (e, rest) ← operation fuel scope 0 rest
      let rest ← expect ")" rest
      suffixes fuel scope (.single e) rest
    | _ => fail "unexpected symbol" ts

def suffixes (fuel : Nat) (scope : Scope) (e : Expr) (ts : Lexemes) : Read (Expr × Lexemes) :=
  match fuel with
  | 0 => fail "chunk too long" ts
  | fuel + 1 => do
    match ts with
    | ⟨.symbol ".", line⟩ :: rest =>
      let (n, rest) ← name rest
      suffixes fuel scope (.index e (.str n) line) rest
    | ⟨.symbol "[", line⟩ :: rest =>
      let (key, rest) ← operation fuel scope 0 rest
      let rest ← expect "]" rest
      suffixes fuel scope (.index e key line) rest
    | ⟨.symbol ":", line⟩ :: rest =>
      let (n, rest) ← name rest
      let (args, rest) ← arguments fuel scope rest
      suffixes fuel scope (.method e n args line) rest
    | ⟨.symbol "(", line⟩ :: _ =>
      let (args, rest) ← arguments fuel scope ts
      suffixes fuel scope (.call e args line) rest
    | ⟨.str _, line⟩ :: _ =>
      let (args, rest) ← arguments fuel scope ts
      suffixes fuel scope (.call e args line) rest
    | _ =>
      if isSymbol openBrace ts then
        let (args, rest) ← arguments fuel scope ts
        suffixes fuel scope (.call e args (lineOf ts)) rest
      else .ok (e, ts)

def arguments (fuel : Nat) (scope : Scope) (ts : Lexemes) : Read (List Expr × Lexemes) :=
  match fuel with
  | 0 => fail "chunk too long" ts
  | fuel + 1 => do
    match ts with
    | ⟨.str s, _⟩ :: rest => .ok ([.str s], rest)
    | ⟨.symbol "(", _⟩ :: rest =>
      if isSymbol ")" rest then .ok ([], rest.drop 1)
      else
        let (es, rest) ← expressions fuel scope rest
        let rest ← expect ")" rest
        .ok (es, rest)
    | _ =>
      if isSymbol openBrace ts then
        let (e, rest) ← table fuel scope ts
        .ok ([e], rest)
      else fail "function arguments expected" ts

def expressions (fuel : Nat) (scope : Scope) (ts : Lexemes) : Read (List Expr × Lexemes) :=
  match fuel with
  | 0 => fail "chunk too long" ts
  | fuel + 1 => do
    let (e, rest) ← operation fuel scope 0 ts
    if isSymbol "," rest then
      let (es, rest) ← expressions fuel scope (rest.drop 1)
      .ok (e :: es, rest)
    else .ok ([e], rest)

def table (fuel : Nat) (scope : Scope) (ts : Lexemes) : Read (Expr × Lexemes) :=
  match fuel with
  | 0 => fail "chunk too long" ts
  | fuel + 1 => do
    let (fs, rest) ← fields fuel scope (ts.drop 1)
    .ok (.table fs (lineOf ts), rest)

def fields (fuel : Nat) (scope : Scope) (ts : Lexemes) : Read (List Field × Lexemes) :=
  match fuel with
  | 0 => fail "chunk too long" ts
  | fuel + 1 => do
    if isSymbol closeBrace ts then .ok ([], ts.drop 1)
    else
      let (f, rest) ← match ts with
        | ⟨.name n, _⟩ :: ⟨.symbol "=", _⟩ :: rest => do
          let (v, rest) ← operation fuel scope 0 rest
          pure (Field.keyed (.str n) v, rest)
        | ⟨.symbol "[", _⟩ :: rest => do
          let (key, rest) ← operation fuel scope 0 rest
          let rest ← expect "]" rest
          let rest ← expect "=" rest
          let (v, rest) ← operation fuel scope 0 rest
          pure (Field.keyed key v, rest)
        | _ => do
          let (v, rest) ← operation fuel scope 0 ts
          pure (Field.item v, rest)
      if isSymbol "," rest || isSymbol ";" rest then
        let (fs, rest) ← fields fuel scope (rest.drop 1)
        .ok (f :: fs, rest)
      else
        let rest ← expect closeBrace rest
        .ok ([f], rest)

/-- Reads a function from its parameters on; a method has its object as a first parameter. -/
def functionBody (fuel : Nat) (scope : Scope) (isMethod : Bool) (ts : Lexemes) :
    Read (Function × Lexemes) :=
  match fuel with
  | 0 => fail "chunk too long" ts
  | fuel + 1 => do
    let ts ← expect "(" ts
    let read := if isSymbol ")" ts then .ok (([], false), ts.drop 1) else parameters fuel ts
    let ((ps, rest), ts) ← read
    let ps := if isMethod then Bytes.ofString "self" :: ps else ps
    let inner : Scope :=
      { locals := scope.locals, takesRest := rest, level := scope.level }
    let (body, ts) ← statements fuel (inner.addAll ps) false ts
    checkJumps body ts
    let ts ← expect "end" ts
    .ok (.mk ps.length rest body, ts)

/-- Reads statements up to the end of their block; in a repetition the condition too. -/
def statements (fuel : Nat) (scope : Scope) (repetition : Bool) (ts : Lexemes) :
    Read (List Stat × Lexemes) :=
  match fuel with
  | 0 => fail "chunk too long" ts
  | fuel + 1 => do
    if maxLevel ≤ scope.level then fail "chunk has too many syntax levels" ts
    else if endsBlock ts then
      if repetition then
        let ts ← expect "until" ts
        let (c, ts) ← operation fuel scope 0 ts
        .ok ([.until c], ts)
      else .ok ([], ts)
    else if isSymbol ";" ts then statements fuel scope repetition (ts.drop 1)
    else if isSymbol "return" ts then
      let (s, ts) ← giveBack fuel scope (ts.drop 1)
      if !endsBlock ts then fail "'<eof>' expected" ts
      else if repetition then
        let (rest, ts) ← statements fuel scope true ts
        .ok (s :: rest, ts)
      else .ok ([s], ts)
    else
      let ((s, inner), ts) ← statement fuel { scope with level := scope.level + 1 } ts
      let (rest, ts) ← statements fuel { inner with level := scope.level } repetition ts
      .ok (s :: rest, ts)

def giveBack (fuel : Nat) (scope : Scope) (ts : Lexemes) : Read (Stat × Lexemes) :=
  match fuel with
  | 0 => fail "chunk too long" ts
  | fuel + 1 => do
    let drop (ts : Lexemes) := if isSymbol ";" ts then ts.drop 1 else ts
    if endsBlock ts || isSymbol ";" ts then .ok (.giveBack [], drop ts)
    else
      let (es, ts) ← expressions fuel scope ts
      match es with
      | [e] => .ok (if isCall e && !scope.closing then .tailCall e else .giveBack [e], drop ts)
      | es => .ok (.giveBack es, drop ts)

def blockToEnd (fuel : Nat) (scope : Scope) (ts : Lexemes) : Read (List Stat × Lexemes) :=
  match fuel with
  | 0 => fail "chunk too long" ts
  | fuel + 1 => do
    let (body, ts) ← statements fuel scope false ts
    let ts ← expect "end" ts
    .ok (body, ts)

def choice (fuel : Nat) (scope : Scope) (ts : Lexemes) : Read (Stat × Lexemes) :=
  match fuel with
  | 0 => fail "chunk too long" ts
  | fuel + 1 => do
    let (c, ts) ← operation fuel scope 0 ts
    let ts ← expect "then" ts
    let (body, ts) ← statements fuel scope false ts
    if isSymbol "elseif" ts then
      let (other, ts) ← choice fuel scope (ts.drop 1)
      .ok (.ifThen c body [other], ts)
    else if isSymbol "else" ts then
      let (other, ts) ← blockToEnd fuel scope (ts.drop 1)
      .ok (.ifThen c body other, ts)
    else
      let ts ← expect "end" ts
      .ok (.ifThen c body [], ts)

def counting (fuel : Nat) (scope : Scope) (counter : Bytes) (line : Nat) (ts : Lexemes) :
    Read (Stat × Lexemes) :=
  match fuel with
  | 0 => fail "chunk too long" ts
  | fuel + 1 => do
    let (es, ts) ← expressions fuel scope ts
    let ts' ← expect "do" ts
    let (body, rest) ← blockToEnd fuel { scope.add { name := counter } with inLoop := true } ts'
    match es with
    | [start, stop] => .ok (.numericFor start stop none body line, rest)
    | [start, stop, step] => .ok (.numericFor start stop (some step) body line, rest)
    | _ => fail "'=' or 'in' expected" ts

/-- Reads assignment targets, or the one call that is a statement. -/
def assignment (fuel : Nat) (scope : Scope) (targets : List Expr) (ts : Lexemes) :
    Read (Stat × Lexemes) :=
  match fuel with
  | 0 => fail "chunk too long" ts
  | fuel + 1 => do
    let (e, rest) ← suffixed fuel scope ts
    if isSymbol "," rest || isSymbol "=" rest then
      if isConstant scope e then fail "attempt to assign to const variable" rest
      else if !isAssignable e then fail "syntax error" rest
      else if isSymbol "," rest then assignment fuel scope (e :: targets) (rest.drop 1)
      else
        let (vs, rest') ← expressions fuel scope (rest.drop 1)
        .ok (.assign (e :: targets).reverse vs (lineOf ts), rest')
    else if targets.isEmpty && isCall e then .ok (.call e, rest)
    else fail "syntax error" rest

def functionName (fuel : Nat) (e : Expr) (ts : Lexemes) : Read ((Expr × Bool) × Lexemes) :=
  match fuel with
  | 0 => fail "chunk too long" ts
  | fuel + 1 => do
    match ts with
    | ⟨.symbol ".", line⟩ :: rest =>
      let (n, rest) ← name rest
      functionName fuel (.index e (.str n) line) rest
    | ⟨.symbol ":", line⟩ :: rest =>
      let (n, rest) ← name rest
      .ok ((.index e (.str n) line, true), rest)
    | _ => .ok ((e, false), ts)

def statement (fuel : Nat) (scope : Scope) (ts : Lexemes) : Read ((Stat × Scope) × Lexemes) :=
  match fuel with
  | 0 => fail "chunk too long" ts
  | fuel + 1 => do
    let line := lineOf ts
    let plain (r : Read (Stat × Lexemes)) : Read ((Stat × Scope) × Lexemes) :=
      r.map fun (s, ts) => ((s, scope), ts)
    match peek ts with
    | .symbol "if" => plain (choice fuel scope (ts.drop 1))
    | .symbol "while" =>
      let (c, ts) ← operation fuel scope 0 (ts.drop 1)
      let ts ← expect "do" ts
      let (body, ts) ← blockToEnd fuel { scope with inLoop := true } ts
      .ok ((.whileDo c body, scope), ts)
    | .symbol "do" =>
      let (body, ts) ← blockToEnd fuel scope (ts.drop 1)
      .ok ((.block body, scope), ts)
    | .symbol "for" =>
      let (ns, ts) ← names fuel (ts.drop 1)
      match ns, isSymbol "=" ts with
      | [n], true => plain (counting fuel scope n line (ts.drop 1))
      | _, _ =>
        let ts ← expect "in" ts
        let (es, ts) ← expressions fuel scope ts
        let ts ← expect "do" ts
        let (body, ts) ← blockToEnd fuel { scope.addAll ns with inLoop := true } ts
        .ok ((.genericFor ns.length es body line, scope), ts)
    | .symbol "repeat" =>
      let (body, ts) ← statements fuel { scope with inLoop := true } true (ts.drop 1)
      .ok ((.repeatUntil body, scope), ts)
    | .symbol "function" =>
      let (n, ts') ← name (ts.drop 1)
      let ((target, isMethod), ts') ← functionName fuel (ofName scope n line) ts'
      let (f, ts') ← functionBody fuel scope isMethod ts'
      .ok ((.assign [target] [.function f] line, scope), ts')
    | .symbol "local" =>
      if isSymbol "function" (ts.drop 1) then
        let (n, ts) ← name (ts.drop 2)
        let inner := scope.add { name := n }
        let (f, ts) ← functionBody fuel inner false ts
        .ok ((.localFunction f, inner), ts)
      else
        let (ns, ts) ← declared fuel (ts.drop 1)
        if 1 < ns.countP (·.2 == .closing) then
          fail "multiple to-be-closed variables in local list" ts
        let values := if isSymbol "=" ts then expressions fuel scope (ts.drop 1) else .ok ([], ts)
        let (es, ts) ← values
        let inner := ns.foldl (fun s n => s.add ⟨n.1, n.2 != .plain⟩) scope
        let flags := ns.map fun n => n.2 == .closing
        let inner := { inner with closing := inner.closing || flags.contains true }
        .ok ((.locals flags es line, inner), ts)
    | .symbol "::" =>
      let (n, ts) ← name (ts.drop 1)
      let ts ← expect "::" ts
      .ok ((.label n, scope), ts)
    | .symbol "break" =>
      if scope.inLoop then .ok ((.leave, scope), ts.drop 1)
      else fail "break outside a loop" ts
    | .symbol "goto" =>
      let (n, ts) ← name (ts.drop 1)
      .ok ((.goto n, scope), ts)
    | _ => plain (assignment fuel scope [] ts)

end

end Parser

def Chunk.parse (text : Bytes) : Except ChunkFault Function := do
  let ts ← Lexeme.ofChunk text
  let scope : Parser.Scope := { locals := [{ name := Parser.globalsName }], takesRest := true }
  let (body, rest) ← Parser.statements (20 * ts.length + 40) scope false ts
  match Parser.peek rest with
  | .ending => do
    Parser.checkJumps body rest
    return .mk 0 true body
  | _ => Parser.fail "'<eof>' expected" rest

end ScriptGate.Lua
