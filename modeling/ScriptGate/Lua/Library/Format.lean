import ScriptGate.Lua.Library.Argument

/-!
# Formatted texts

Directives of a format: flags, a width, a precision and a letter that says how the next argument is
written.
-/

namespace ScriptGate.Lua.Library.Format

structure Directive where
  left : Bool := false
  plus : Bool := false
  space : Bool := false
  alternate : Bool := false
  zero : Bool := false
  width : Nat := 0
  precision : Option Nat := none

def pad (d : Directive) (s : List Char) : List Char :=
  let fill := List.replicate (d.width - s.length) ' '
  if d.left then s ++ fill else fill ++ s

/-- A number of sign and digits filled up to the width, with zeros where the directive asks. -/
def padNumber (d : Directive) (zeros : Bool) (negative : Bool) (digits : List Char) : List Char :=
  let sign := if negative then ['-'] else if d.plus then ['+'] else if d.space then [' '] else []
  if d.zero && zeros && !d.left then
    sign ++ List.replicate (d.width - sign.length - digits.length) '0' ++ digits
  else pad d (sign ++ digits)

def atLeast (precision : Option Nat) (digits : List Char) : List Char :=
  match precision with
  | none => digits
  | some 0 => if digits = ['0'] then [] else digits
  | some p => List.replicate (p - digits.length) '0' ++ digits

def upper (s : List Char) : List Char := s.map Char.toUpper

def integer (d : Directive) (i : Int) : List Char :=
  padNumber d d.precision.isNone (i < 0) (atLeast d.precision (Nat.toDigits 10 i.natAbs))

def unsigned (d : Directive) (base : Nat) (mark : List Char) (i : Int64) : List Char :=
  let n := i.toUInt64.toNat
  let digits := atLeast d.precision (Nat.toDigits base n)
  let mark := if d.alternate ∧ n ≠ 0 then mark else []
  padNumber { d with plus := false, space := false } d.precision.isNone false (mark ++ digits)

/-- Digits with a point before the last `places` of them. -/
def withPoint (places : Nat) (alternate : Bool) (n : Nat) : List Char :=
  let digits := Nat.toDigits 10 n
  let digits := List.replicate (places + 1 - digits.length) '0' ++ digits
  let whole := digits.take (digits.length - places)
  if places = 0 then (if alternate then whole ++ ['.'] else whole)
  else whole ++ '.' :: digits.drop (digits.length - places)

def exponent (e : Int) : List Char :=
  let ds := Nat.toDigits 10 e.natAbs
  'e' :: (if e < 0 then '-' else '+') :: (List.replicate (2 - ds.length) '0' ++ ds)

def scientific (x : Binary64) (places : Nat) (alternate : Bool) : List Char :=
  let d := Decimal.rounded x (places + 1)
  let ds := Nat.toDigits 10 d.value
  let ds := ds ++ List.replicate (places + 1 - ds.length) '0'
  let e : Int := if d.value = 0 then 0 else d.exponent + (Nat.toDigits 10 d.value).length - 1
  let tail := (ds.drop 1).take places
  ds.take 1 ++ (if places = 0 ∧ !alternate then [] else '.' :: tail) ++ exponent e

/-- The shorter of the two forms, without zeros at its end. -/
def general (x : Binary64) (precision : Nat) (alternate : Bool) : List Char :=
  let p := if precision = 0 then 1 else precision
  let d := Decimal.rounded x p
  let e : Int := if d.value = 0 then 0 else d.exponent + (Nat.toDigits 10 d.value).length - 1
  let trim (s : List Char) : List Char :=
    if alternate || !s.contains '.' then s
    else ((s.reverse.dropWhile (· == '0')).dropWhile (· == '.')).reverse
  if e < -4 ∨ p ≤ e then
    let s := scientific x (p - 1) alternate
    trim (s.takeWhile (· != 'e')) ++ s.dropWhile (· != 'e')
  else
    let places := (p - 1 - e).toNat
    trim (withPoint places alternate (Decimal.fixed x places))

/-- Form of base sixteen with a binary exponent. -/
def hexadecimal (x : Binary64) (precision : Option Nat) : List Char :=
  let (m, q) := x.magnitude
  let e : Int := if m = 0 then 0 else q + 52
  let lead := m / Binary64.fractionCount
  let fraction := m % Binary64.fractionCount
  let ds := Nat.toDigits 16 fraction
  let ds := List.replicate (13 - ds.length) '0' ++ ds
  let ds := match precision with
    | some p => (ds ++ List.replicate (p - 13) '0').take p
    | none => (ds.reverse.dropWhile (· == '0')).reverse
  ['0', 'x'] ++ Nat.toDigits 16 lead ++ (if ds = [] then [] else '.' :: ds) ++
    'p' :: (if e < 0 then '-' else '+') :: Nat.toDigits 10 e.natAbs

def float (d : Directive) (letter : Char) (x : Binary64) : List Char :=
  if x.isNaN then padNumber d false x.isNegative ['n', 'a', 'n']
  else if x.isInfinite then padNumber d false x.isNegative ['i', 'n', 'f']
  else
    let p := d.precision.getD 6
    padNumber d true x.isNegative (match letter with
      | 'f' => withPoint p d.alternate (Decimal.fixed x p)
      | 'e' => scientific x p d.alternate
      | 'a' => hexadecimal x d.precision
      | _ => general x p d.alternate)

/-- A text as a constant of the guest language. -/
def quoted (s : Bytes) : Bytes :=
  let rec body : Bytes → Bytes
    | [] => []
    | b :: r =>
      if b = 0x22 ∨ b = 0x5C then 0x5C :: b :: body r
      else if b = 0x0A then 0x5C :: 0x0A :: body r
      else if b < 0x20 ∨ b = 0x7F then
        let ds := Nat.toDigits 10 b.toNat
        let digitNext := r.head?.any Number.isDigit
        let ds := if digitNext then List.replicate (3 - ds.length) '0' ++ ds else ds
        0x5C :: (ds.map fun c => UInt8.ofNat c.toNat) ++ body r
      else b :: body r
  0x22 :: (body s ++ [0x22])

def constant (a : Args) (i : Nat) : Result Bytes :=
  match a.get i with
  | .str s => .ok (quoted s)
  | .number (.int n) =>
    .ok (if n = Int64.minValue then Bytes.ofString "0x8000000000000000" else Number.text (.int n))
  | .number (.float x) =>
    if x.isNaN then .ok (Bytes.ofString "(0/0)")
    else if x.isInfinite then
      .ok (Bytes.ofString (if x.isNegative then "-1e9999" else "1e9999"))
    else if x.isIntegral ∧ x.truncate.natAbs < 1000000000000000 then
      .ok (Bytes.ofString (String.ofList
        ((if x.isNegative then ['-'] else []) ++ hexadecimal x none)))
    else .ok (Bytes.ofString (String.ofList
        ((if x.isNegative then ['-'] else []) ++ hexadecimal x none)))
  | .nil => .ok (Bytes.ofString "nil")
  | .bool b => .ok (Bytes.ofString (if b then "true" else "false"))
  | _ => a.fail i "value has no literal form"

def flags (d : Directive) : List Char → Directive × List Char
  | '-' :: r => flags { d with left := true } r
  | '+' :: r => flags { d with plus := true } r
  | ' ' :: r => flags { d with space := true } r
  | '#' :: r => flags { d with alternate := true } r
  | '0' :: r => flags { d with zero := true } r
  | s => (d, s)

def twoDigits (s : List Char) : Nat × List Char :=
  let ds := (s.take 2).takeWhile Char.isDigit
  (ds.foldl (fun n c => n * 10 + (c.toNat - 0x30)) 0, s.drop ds.length)

def directive (s : List Char) : Option (Directive × Char × List Char) :=
  let (d, s) := flags {} s
  let (width, s) := twoDigits s
  let d := { d with width }
  let (d, s) := match s with
    | '.' :: r => let (p, r) := twoDigits r; ({ d with precision := some p }, r)
    | s => (d, s)
  match s with
  | c :: r => some (d, c, r)
  | [] => none

/-- A byte as a character of the same number, and back. -/
def ofBytes (b : Bytes) : List Char := b.map fun x => Char.ofNat x.toNat
def toBytes (s : List Char) : Bytes := s.map fun c => UInt8.ofNat c.toNat

/-- Writes a format with the arguments from place `i` on. `show_` gives the text of any value. -/
def write (show_ : Value → Bytes) (a : Args) (i : Nat) (out : Array UInt8) :
    (fuel : Nat) → List Char → Result Bytes
  | 0, _ | _, [] => .ok out.toList
  | fuel + 1, '%' :: '%' :: r => write show_ a i (out.push 0x25) fuel r
  | fuel + 1, '%' :: s => do
    match directive s with
    | none => .error "invalid conversion '%' to 'format'"
    | some (d, letter, rest) =>
      let emit (cs : List Char) : Result Bytes :=
        write show_ a (i + 1) (out ++ (toBytes cs).toArray) fuel rest
      match letter with
      | 'd' | 'i' => emit (integer d (← a.int i))
      | 'c' => emit (pad d [Char.ofNat ((← a.int i).toNat % 256)])
      | 'x' => emit (unsigned d 16 ['0', 'x'] (← a.int64 i))
      | 'X' => emit (upper (unsigned d 16 ['0', 'x'] (← a.int64 i)))
      | 'o' => emit (unsigned d 8 ['0'] (← a.int64 i))
      | 'f' | 'F' => emit (float d 'f' (← a.float i))
      | 'e' => emit (float d 'e' (← a.float i))
      | 'E' => emit (upper (float d 'e' (← a.float i)))
      | 'g' => emit (float d 'g' (← a.float i))
      | 'G' => emit (upper (float d 'g' (← a.float i)))
      | 'a' => emit (float d 'a' (← a.float i))
      | 'A' => emit (upper (float d 'a' (← a.float i)))
      | 's' =>
        let s := ofBytes (show_ (← a.any i))
        emit (pad d (match d.precision with
          | some p => s.take p
          | none => s))
      | 'p' => emit (pad d (ofBytes (show_ (← a.any i))))
      | 'q' => emit (ofBytes (← constant a i))
      | c => .error ("invalid conversion '%" ++ String.singleton c ++ "' to 'format'")
  | fuel + 1, c :: r => write show_ a i (out.push (UInt8.ofNat c.toNat)) fuel r

def format (show_ : Value → Bytes) (a : Args) : Result (List Value) := do
  let s ← a.text 0
  return [.str (← write show_ a 1 #[] (s.length + 1) (ofBytes s))]

end ScriptGate.Lua.Library.Format
