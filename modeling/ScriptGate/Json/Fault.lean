import ScriptGate.Bytes

/-!
# Faults of JSON text

Why a text is not a value, and the place a message points at. A place is kept as the number of bytes
behind it, which is what a reader knows.
-/

namespace ScriptGate.Json

inductive Fault where
  | endInArray
  | endInObject
  | endInString
  | endInValue
  | noColon
  | noArrayEnd
  | noObjectEnd
  | badWord
  | noValue
  | badEscape
  | badNumber
  | numberRange
  | badUnicode
  | controlCharacter
  | keyNotString
  | loneSurrogate
  | trailingComma
  | trailing
  | hexEscapeEnd
  | tooDeep
  | otherType
  | duplicateMember
  | missingMember
  deriving DecidableEq, Repr

def Fault.message : Fault → String
  | .endInArray => "EOF while parsing a list"
  | .endInObject => "EOF while parsing an object"
  | .endInString => "EOF while parsing a string"
  | .endInValue => "EOF while parsing a value"
  | .noColon => "expected `:`"
  | .noArrayEnd => "expected `,` or `]`"
  | .noObjectEnd => "expected `,` or `\x7d`"
  | .badWord => "expected ident"
  | .noValue => "expected value"
  | .badEscape => "invalid escape"
  | .badNumber => "invalid number"
  | .numberRange => "number out of range"
  | .badUnicode => "invalid unicode code point"
  | .controlCharacter => "control character (\\u0000-\\u001F) found while parsing a string"
  | .keyNotString => "key must be a string"
  | .loneSurrogate => "lone leading surrogate in hex escape"
  | .trailingComma => "trailing comma"
  | .trailing => "trailing characters"
  | .hexEscapeEnd => "unexpected end of hex escape"
  | .tooDeep => "recursion limit exceeded"
  | .otherType => "invalid type"
  | .duplicateMember => "duplicate field"
  | .missingMember => "missing field"

/-- A fault, and how many bytes of the text lie behind its place. -/
structure SyntaxError where
  fault : Fault
  left : Nat
  deriving DecidableEq, Repr

/-- What a reader gives: a value and the bytes behind it. -/
abbrev Parsed (α : Type) := Except SyntaxError (α × Bytes)

/-- A fault before the bytes `rest`. -/
def fail {α : Type} (f : Fault) (rest : Bytes) : Except SyntaxError α := .error ⟨f, rest.length⟩

/-- A fault on the first of the bytes `rest`. -/
def failOn {α : Type} (f : Fault) (rest : Bytes) : Except SyntaxError α :=
  .error ⟨f, rest.length - 1⟩

/-- The line of a place and the bytes before it on that line, after reading `seen`. -/
def lineColumn (seen : Bytes) : Nat × Nat :=
  (1 + seen.count 0x0A, (seen.reverse.takeWhile (· ≠ 0x0A)).length)

def SyntaxError.message (e : SyntaxError) (text : Bytes) : String :=
  let (line, column) := lineColumn (text.take (text.length - e.left))
  e.fault.message ++ " at line " ++ toString line ++ " column " ++ toString column

end ScriptGate.Json
