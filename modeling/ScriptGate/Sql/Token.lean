import ScriptGate.Sql.Value
import ScriptGate.Word

/-!
# Tokens of statements

A text is cut into tokens up to the end of its first statement; what comes after that is not read.
Blanks and comments separate tokens. Parameters are numbered as they come.
-/

namespace ScriptGate.Sql

inductive Lexeme where
  | word (s : String)
  /-- A name in quotes; `double` for double quotes. -/
  | quoted (s : String) (double : Bool)
  | literal (v : Value)
  /-- A parameter by number, by name, or the next one. -/
  | parameter (number : Option Nat) (name : String)
  | symbol (s : String)
  deriving DecidableEq

structure Token where
  lexeme : Lexeme
  start : Nat
  stop : Nat

namespace Token

def isNamePart (c : Char) : Bool := c.isAlphanum || c == '_' || c == '$' || 0x80 ≤ c.toNat

def isNameStart (c : Char) : Bool := isNamePart c && !c.isDigit && c != '$'

/-- The text between quotes, in which a quote is written twice, and what follows. -/
def quotedText (close : Char) : List Char → Option (List Char × List Char)
  | [] => none
  | [c] => if c = close then some ([], []) else none
  | c :: d :: r =>
    if c = close then
      if d = close then (quotedText close r).map fun (s, rest) => (close :: s, rest)
      else some ([], d :: r)
    else (quotedText close (d :: r)).map fun (s, rest) => (c :: s, rest)

/-- What follows the end of a comment; the end of the text ends it too. -/
def afterComment : List Char → List Char
  | '*' :: '/' :: r => r
  | _ :: r => afterComment r
  | [] => []

def symbol? : List Char → Option (String × List Char)
  | '|' :: '|' :: r => some ("||", r)
  | '=' :: '=' :: r => some ("=", r)
  | '!' :: '=' :: r => some ("<>", r)
  | '<' :: '>' :: r => some ("<>", r)
  | '<' :: '=' :: r => some ("<=", r)
  | '>' :: '=' :: r => some (">=", r)
  | c :: r => if "(),;.=<>+-*/%".toList.contains c then some (c.toString, r) else none
  | [] => none

def number? (s : List Char) : Option (Value × List Char) :=
  match s with
  | '0' :: x :: r =>
    if x = 'x' ∨ x = 'X' then
      let ds := r.takeWhile fun c => c.isDigit || ('a' ≤ c.toLower && c.toLower ≤ 'f')
      let n := ds.foldl (fun n c =>
        n * 16 + (if c.isDigit then c.toNat - 0x30 else c.toLower.toNat - 0x57)) 0
      if ds.isEmpty || Word.count64 ≤ n then none else some (.int (Int64.ofNat n), r.drop ds.length)
    else Value.numeral? s
  | _ => Value.numeral? s

def lexeme? (s : List Char) : Option (Lexeme × List Char) :=
  match s with
  | [] => none
  | c :: r =>
    if c = '\'' then (quotedText '\'' r).map fun (t, rest) => (.literal (.text (.ofList t)), rest)
    else if c = '"' then (quotedText '"' r).map fun (t, rest) => (.quoted (.ofList t) true, rest)
    else if c.toNat = 0x60 then
      (quotedText c r).map fun (t, rest) => (.quoted (.ofList t) false, rest)
    else if c = '[' then
      let t := r.takeWhile (· != ']')
      if t.length < r.length then some (.quoted (.ofList t) false, r.drop (t.length + 1)) else none
    else if c = '?' then
      let ds := r.takeWhile Char.isDigit
      if ds.isEmpty then some (.parameter none "", r)
      else
        let n := Value.ofDigits ds
        if n = 0 ∨ 32766 < n then none else some (.parameter (some n) "", r.drop ds.length)
    else if c = ':' ∨ c = '@' ∨ c = '$' then
      let t := r.takeWhile isNamePart
      if t.isEmpty then none else some (.parameter none (.ofList (c :: t)), r.drop t.length)
    else if (c = 'x' ∨ c = 'X') ∧ r.head? = some '\'' then
      match quotedText '\'' (r.drop 1) with
      | some (t, rest) =>
        (Bytes.ofHex? (Bytes.ofString (.ofList t))).map fun b => (.literal (.blob b), rest)
      | none => none
    else if isNameStart c then
      let t := s.takeWhile isNamePart
      some (.word (.ofList t), s.drop t.length)
    else if c.isDigit || (c = '.' && (r.head?.map Char.isDigit).getD false) then
      match number? s with
      | some (v, rest) =>
        if (rest.head?.map isNamePart).getD false then none else some (.literal v, rest)
      | none => none
    else (symbol? s).map fun (t, rest) => (.symbol t, rest)

def skip : (fuel : Nat) → List Char → List Char
  | 0, s => s
  | _, [] => []
  | fuel + 1, c :: r =>
    if Value.isBlank c then skip fuel r
    else
      match c, r with
      | '-', '-' :: r => skip fuel (r.dropWhile (· != '\n'))
      | '/', '*' :: r => skip fuel (afterComment r)
      | c, r => c :: r

/-- The tokens of the first statement of a text that is `total` characters long; nothing where a
character belongs to no token. A zero character ends the text. -/
def scan (total : Nat) : (fuel : Nat) → List Char → (found : Bool) → Option (List Token)
  | 0, _, _ => some []
  | fuel + 1, s, found =>
    let s := skip (s.length + 1) s
    match s with
    | [] => some []
    | '\x00' :: _ => some []
    | s =>
      match lexeme? s with
      | none => none
      | some (.symbol ";", rest) => if found then some [] else scan total fuel rest false
      | some (l, rest) =>
        (scan total fuel rest true).map
          (⟨l, total - s.length, total - rest.length⟩ :: ·)

/-- Gives every parameter its number: one of its own, that of an earlier one of the same name, or
the next one. -/
def assign (top : Nat) (names : List (String × Nat)) : List Token → List Token
  | [] => []
  | t :: rest =>
    match t.lexeme with
    | .parameter (some n) _ => t :: assign (max top n) names rest
    | .parameter none name =>
      match names.lookup name with
      | some n => { t with lexeme := .parameter (some n) name } :: assign top names rest
      | none =>
        let n := top + 1
        let names := if name = "" then names else (name, n) :: names
        { t with lexeme := .parameter (some n) name } :: assign n names rest
    | _ => t :: assign top names rest

def parameterCount (ts : List Token) : Nat :=
  ts.foldl (fun n t => match t.lexeme with
    | .parameter (some k) _ => max n k
    | _ => n) 0

def ofText? (s : String) : Option (List Token) :=
  let cs := s.toList
  (scan cs.length (cs.length + 1) cs false).map (assign 0 [])

end Token

end ScriptGate.Sql
