import ScriptGate.Bytes
import ScriptGate.Decimal.Shortest
import ScriptGate.Word

/-!
# Values of a database

Values belong to one of five classes. Across classes they are in the order null, numbers, texts,
blobs. An affinity converts a value that is stored in a column, or compared with one, to the class
that the column prefers, where nothing is lost.
-/

namespace ScriptGate.Sql

inductive Value where
  | null
  | int (i : Int64)
  | real (x : Binary64)
  | text (s : String)
  | blob (b : Bytes)
  deriving DecidableEq, Inhabited

inductive Affinity where
  | blob
  | text
  | numeric
  | integer
  | real
  deriving DecidableEq

def Affinity.isNumeric : Affinity → Bool
  | .numeric | .integer | .real => true
  | .blob | .text => false

namespace Value

/-- A double as a value; a result that is no number is null. -/
def ofReal (x : Binary64) : Value := if x.isNaN then .null else .real x

def ofBool (b : Bool) : Value := .int (if b then 1 else 0)

def isNull : Value → Bool
  | .null => true
  | _ => false

/-! ### Texts of numbers -/

/-- Fifteen significant digits, positional for exponents from -4 to 14. -/
def realStyle : Decimal.Style where
  positional e := decide (-4 ≤ e ∧ e < 15)
  pointZero := true
  exponentDigits := 2

/-- A fraction of zero where the mantissa has none. -/
def withPoint (s : String) : String :=
  let mantissa := s.toList.takeWhile (· != 'e')
  if mantissa.contains '.' then s
  else String.ofList (mantissa ++ ['.', '0'] ++ s.toList.drop mantissa.length)

def realText (x : Binary64) : String :=
  if x.isInfinite then (if x.isNegative then "-Inf" else "Inf")
  else withPoint (realStyle.write (x.isNegative && !x.isZero) (Decimal.rounded x 15))

def isBlank (c : Char) : Bool := c == ' ' || ('\t' ≤ c && c ≤ '\r')

def ofDigits (ds : List Char) : Nat := ds.foldl (fun n c => n * 10 + (c.toNat - 0x30)) 0

def exponent? : List Char → Option (Int × List Char)
  | c :: rest =>
    if c = 'e' ∨ c = 'E' then
      let (negative, r) := match rest with
        | '-' :: r => (true, r)
        | '+' :: r => (false, r)
        | r => (false, r)
      let ds := r.takeWhile Char.isDigit
      if ds.isEmpty then none
      else
        let n : Int := ofDigits ds
        some (if negative then -n else n, r.drop ds.length)
    else none
  | [] => none

def numeral? (s : List Char) : Option (Value × List Char) :=
  let (negative, r) := match s.dropWhile isBlank with
    | '-' :: r => (true, r)
    | '+' :: r => (false, r)
    | r => (false, r)
  let whole := r.takeWhile Char.isDigit
  let (point, fraction, r) := match r.drop whole.length with
    | '.' :: r => (true, r.takeWhile Char.isDigit, r.dropWhile Char.isDigit)
    | r => (false, [], r)
  if whole.isEmpty && fraction.isEmpty then none
  else
    let n := ofDigits (whole ++ fraction)
    let real (e : Int) : Value :=
      let x := Binary64.ofDecimal n (e - fraction.length)
      .real (if negative then x.neg else x)
    match exponent? r with
    | some (e, rest) => some (real e, rest)
    | none =>
      let i : Int := if negative then -(n : Int) else n
      if !point && Word.IsSigned64 i then some (.int (Int64.ofInt i), r)
      else some (real 0, r)

def ofNumeral? (s : String) : Option Value :=
  match numeral? s.toList with
  | some (v, rest) => if rest.all isBlank then some v else none
  | none => none

/-! ### Affinities -/

/-- A double with an integral value inside the range of integers as an integer. -/
def integral : Value → Value
  | .real x =>
    match x.toInt? with
    | some i => if Word.least64 < i ∧ i < Word.greatest64 then .int (Int64.ofInt i) else .real x
    | none => .real x
  | v => v

def numeric : Value → Value
  | .text s => (ofNumeral? s).getD (.text s)
  | v => v

def textual : Value → Value
  | .int i => .text (toString i.toInt)
  | .real x => .text (realText x)
  | v => v

def stored (a : Affinity) (v : Value) : Value :=
  match a with
  | .blob => v
  | .text => v.textual
  | .numeric | .integer => v.numeric.integral
  | .real =>
    match v.numeric with
    | .int i => .real (Binary64.ofInt i.toInt)
    | .real x => .real (if x.isZero then ⟨0⟩ else x)
    | v => v

/-! ### Order -/

def rank : Value → Nat
  | .null => 0
  | .int _ | .real _ => 1
  | .text _ => 2
  | .blob _ => 3

def before : Value → Value → Bool
  | .int a, .int b => a < b
  | .int a, .real y => Binary64.intLt a.toInt y
  | .real x, .int b => Binary64.ltInt x b.toInt
  | .real x, .real y => x.lt y
  | .text a, .text b => a < b
  | .blob a, .blob b => Bytes.lt a b
  | a, b => a.rank < b.rank

def same (a b : Value) : Bool := !before a b && !before b a

/-! ### Operations -/

/-- The number that a value counts as; null counts as none. -/
def number? : Value → Option Value
  | .null => none
  | .text s => some ((numeral? s.toList).elim (.int 0) Prod.fst)
  | .blob b => some (((b.toString?).bind fun s => numeral? s.toList).elim (.int 0) Prod.fst)
  | v => some v

def toReal : Value → Binary64
  | .int i => Binary64.ofInt i.toInt
  | .real x => x
  | _ => Binary64.ofInt 0

def truncated : Value → Int
  | .int i => i.toInt
  | .real x => x.saturate Word.least64 Word.greatest64
  | _ => 0

/-- Whether a value counts as true; nothing for null. -/
def truth? (v : Value) : Option Bool :=
  v.number?.map fun
    | .int i => i != 0
    | .real x => !x.isZero
    | _ => false

def toText : Value → String
  | .blob b => b.toString?.getD ""
  | v =>
    match v.textual with
    | .text s => s
    | _ => ""

end Value

end ScriptGate.Sql
