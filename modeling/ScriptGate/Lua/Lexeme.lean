import ScriptGate.Lua.Number

/-!
# Lexemes

A chunk as names, symbols, numbers and texts, each with the line on which it ends. Keywords count as
symbols. Blanks and comments lie between lexemes and leave no trace but the count of lines.
-/

namespace ScriptGate.Lua

inductive Lexeme where
  | name (s : Bytes)
  | symbol (s : String)
  | number (n : Number)
  | str (s : Bytes)
  | ending
  deriving DecidableEq

structure Located where
  lexeme : Lexeme
  line : Nat

structure ChunkFault where
  message : String
  line : Nat

namespace Lexeme

def keywords : List String := [
  "and", "break", "do", "else", "elseif", "end", "false", "for", "function", "goto", "if", "in",
  "local", "nil", "not", "or", "repeat", "return", "then", "true", "until", "while"]

/-- Symbols that are no words, longer ones first. -/
def symbols : List String := [
  "...", "<<", ">>", "//", "==", "~=", "<=", ">=", "::", "..",
  "+", "-", "*", "/", "%", "^", "#", "&", "~", "|", "<", ">", "=", "(", ")",
  "\x7b", "\x7d", "[", "]",
  ";", ":", ",", "."]

def isNameStart (b : UInt8) : Bool :=
  (0x61 ≤ b && b ≤ 0x7A) || (0x41 ≤ b && b ≤ 0x5A) || b == 0x5F

def isNamePart (b : UInt8) : Bool := isNameStart b || Number.isDigit b

def isLineEnd (b : UInt8) : Bool := b == 0x0A || b == 0x0D

/-- Passes over one end of line, which may be a pair of two different bytes. -/
def dropLineEnd : Bytes → Bytes
  | 0x0D :: 0x0A :: r | 0x0A :: 0x0D :: r => r
  | _ :: r => r
  | [] => []

/-- What begins with an opening bracket of a long text: the level of it, and the rest. -/
def longOpening (level : Nat) : Bytes → Option (Nat × Bytes)
  | 0x3D :: r => longOpening (level + 1) r
  | 0x5B :: r => some (level, r)
  | _ => none

/-- The rest behind a closing bracket of a level, its first byte aside. -/
def longClosing : (level : Nat) → Bytes → Option Bytes
  | 0, 0x5D :: r => some r
  | level + 1, 0x3D :: r => longClosing level r
  | _, _ => none

/-- Reads a long text up to its closing bracket; lines end in a line feed. -/
def longText (level : Nat) (acc : Bytes) (line : Nat) : (fuel : Nat) → Bytes →
    Except ChunkFault (Bytes × Nat × Bytes)
  | 0, _ | _, [] => .error ⟨"unfinished long string/comment near '<eof>'", line⟩
  | fuel + 1, b :: r =>
    if isLineEnd b then longText level (0x0A :: acc) (line + 1) fuel (dropLineEnd (b :: r))
    else if b = 0x5D then
      match longClosing level r with
      | some rest => .ok (acc.reverse, line, rest)
      | none => longText level (b :: acc) line fuel r
    else longText level (b :: acc) line fuel r

/-- Reads a long text from behind its opening bracket; a line end right there is dropped. -/
def longTextFrom (level line : Nat) (s : Bytes) : Except ChunkFault (Bytes × Nat × Bytes) :=
  match s with
  | b :: r =>
    if isLineEnd b then longText level [] (line + 1) (s.length + 1) (dropLineEnd (b :: r))
    else longText level [] line (s.length + 1) s
  | [] => longText level [] line 1 []

/-- The bytes of a code point of up to thirty-one bits. -/
def utf8 (n : Nat) : Bytes :=
  let tail (n i : Nat) : UInt8 := UInt8.ofNat (0x80 + (n >>> (6 * i)) % 64)
  if n < 0x80 then [UInt8.ofNat n]
  else if n < 0x800 then [UInt8.ofNat (0xC0 + n >>> 6), tail n 0]
  else if n < 0x10000 then [UInt8.ofNat (0xE0 + n >>> 12), tail n 1, tail n 0]
  else if n < 0x200000 then [UInt8.ofNat (0xF0 + n >>> 18), tail n 2, tail n 1, tail n 0]
  else if n < 0x4000000 then
    [UInt8.ofNat (0xF8 + n >>> 24), tail n 3, tail n 2, tail n 1, tail n 0]
  else [UInt8.ofNat (0xFC + n >>> 30), tail n 4, tail n 3, tail n 2, tail n 1, tail n 0]

def shortEscape? (b : UInt8) : Option UInt8 :=
  match Char.ofNat b.toNat with
  | 'a' => some 0x07
  | 'b' => some 0x08
  | 'f' => some 0x0C
  | 'n' => some 0x0A
  | 'r' => some 0x0D
  | 't' => some 0x09
  | 'v' => some 0x0B
  | '\\' => some 0x5C
  | '"' => some 0x22
  | '\'' => some 0x27
  | _ => none

def dropSpace (line : Nat) : (fuel : Nat) → Bytes → Nat × Bytes
  | 0, s => (line, s)
  | _, [] => (line, [])
  | fuel + 1, b :: r =>
    if isLineEnd b then dropSpace (line + 1) fuel (dropLineEnd (b :: r))
    else if Number.isSpace b then dropSpace line fuel r
    else (line, b :: r)

/-- Reads an escape after its backslash: its bytes, the line, and the rest. -/
def escape (line : Nat) (s : Bytes) : Except ChunkFault (Bytes × Nat × Bytes) :=
  let bad : Except ChunkFault (Bytes × Nat × Bytes) := .error ⟨"invalid escape sequence", line⟩
  match s with
  | [] => .error ⟨"unfinished string near '<eof>'", line⟩
  | b :: r =>
    match shortEscape? b with
    | some c => .ok ([c], line, r)
    | none =>
      if isLineEnd b then .ok ([0x0A], line + 1, dropLineEnd (b :: r))
      else if b = 0x78 then
        match r with
        | h :: l :: r =>
          match Bytes.hexValue? h, Bytes.hexValue? l with
          | some h, some l => .ok ([UInt8.ofNat (h * 16 + l)], line, r)
          | _, _ => bad
        | _ => bad
      else if b = 0x7A then
        let (line, rest) := dropSpace line (r.length + 1) r
        .ok ([], line, rest)
      else if b = 0x75 then
        match r with
        | 0x7B :: r =>
          match Number.takeDigits true r with
          | (ds, 0x7D :: rest) =>
            let n := Number.ofDigits 16 ds
            if ds = [] || 0x7FFFFFFF < n then bad else .ok (utf8 n, line, rest)
          | _ => bad
        | _ => bad
      else if Number.isDigit b then
        let ds := ((b :: r).take 3).takeWhile Number.isDigit
        let n := Number.ofDigits 10 (ds.map fun d => d.toNat - 0x30)
        if n < 256 then .ok ([UInt8.ofNat n], line, (b :: r).drop ds.length) else bad
      else bad

def quotedText (quote : UInt8) (acc : Bytes) (line : Nat) : (fuel : Nat) → Bytes →
    Except ChunkFault (Bytes × Nat × Bytes)
  | 0, _ | _, [] => .error ⟨"unfinished string near '<eof>'", line⟩
  | fuel + 1, b :: r =>
    if b = quote then .ok (acc.reverse, line, r)
    else if isLineEnd b then .error ⟨"unfinished string", line⟩
    else if b = 0x5C then
      match escape line r with
      | .error e => .error e
      | .ok (bytes, line, rest) => quotedText quote (bytes.reverse ++ acc) line fuel rest
    else quotedText quote (b :: acc) line fuel r

/-- The bytes that a numeral takes up: digits, points, letters, and a sign right after an exponent
mark. -/
def numeral (hex marked : Bool) : Bytes → Bytes × Bytes
  | [] => ([], [])
  | b :: r =>
    let sign := marked && (b == 0x2B || b == 0x2D)
    if sign || isNamePart b || b == 0x2E then
      let mark := if hex then b == 0x70 || b == 0x50 else b == 0x65 || b == 0x45
      let (more, rest) := numeral hex mark r
      (b :: more, rest)
    else ([], b :: r)

def readNumber (line : Nat) (s : Bytes) : Except ChunkFault (Lexeme × Nat × Bytes) :=
  let hex := match s with
    | 0x30 :: x :: _ => x == 0x78 || x == 0x58
    | _ => false
  let (text, rest) := numeral hex false s
  match Number.ofText? text with
  | some n => .ok (.number n, line, rest)
  | none => .error ⟨"malformed number near '" ++ (text.toString?.getD "?") ++ "'", line⟩

def symbol? (s : Bytes) : Option (String × Bytes) :=
  symbols.findSome? fun w =>
    let b := Bytes.ofString w
    if b.isPrefixOf s then some (w, s.drop b.length) else none

def read (line : Nat) (s : Bytes) : Except ChunkFault (Lexeme × Nat × Bytes) :=
  match s with
  | [] => .ok (.ending, line, [])
  | b :: r =>
    if isNameStart b then
      let word : Bytes := s.takeWhile isNamePart
      let rest := s.drop word.length
      match word.toString? with
      | some w => .ok (if keywords.contains w then .symbol w else .name word, line, rest)
      | none => .ok (.name word, line, rest)
    else if Number.isDigit b || (b == 0x2E && r.head?.any Number.isDigit) then readNumber line s
    else if b = 0x22 ∨ b = 0x27 then
      match quotedText b [] line (r.length + 1) r with
      | .error e => .error e
      | .ok (t, line, rest) => .ok (.str t, line, rest)
    else
      let long := if b = 0x5B then longOpening 0 r else none
      match long with
      | some (level, body) =>
        match longTextFrom level line body with
        | .error e => .error e
        | .ok (t, line, rest) => .ok (.str t, line, rest)
      | none =>
        match symbol? s with
        | some (w, rest) => .ok (.symbol w, line, rest)
        | none => .error ⟨"unexpected symbol", line⟩

def dropComment (line : Nat) (s : Bytes) : Except ChunkFault (Nat × Bytes) :=
  match s with
  | 0x5B :: r =>
    match longOpening 0 r with
    | some (level, body) =>
      match longTextFrom level line body with
      | .error e => .error e
      | .ok (_, line, rest) => .ok (line, rest)
    | none => .ok (line, s.dropWhile fun b => !isLineEnd b)
  | _ => .ok (line, s.dropWhile fun b => !isLineEnd b)

/-- The lexemes of a chunk, `acc` holding those before, last first. -/
def readAll (acc : List Located) (line : Nat) : (fuel : Nat) → Bytes →
    Except ChunkFault (List Located)
  | 0, _ => .ok (⟨.ending, line⟩ :: acc).reverse
  | fuel + 1, s =>
    match dropSpace line (s.length + 1) s with
    | (line, 0x2D :: 0x2D :: r) =>
      match dropComment line r with
      | .error e => .error e
      | .ok (line, rest) => readAll acc line fuel rest
    | (line, s) =>
      match read line s with
      | .error e => .error e
      | .ok (.ending, line, _) => .ok (⟨.ending, line⟩ :: acc).reverse
      | .ok (x, line, rest) => readAll (⟨x, line⟩ :: acc) line fuel rest

def ofChunk (s : Bytes) : Except ChunkFault (List Located) := readAll [] 1 (s.length + 1) s

end Lexeme

end ScriptGate.Lua
