import ScriptGate.Word

/-!
# Internet addresses

Socket addresses as text: four decimal octets or eight groups of hexadecimal digits, then a port. In
the second form the longest run of two or more zero groups is written as two colons, the first of
equal runs; an address that embeds one of the first form shows it so.
-/

namespace ScriptGate.Net

inductive HostAddress where
  | v4 (octets : List Nat)
  | v6 (groups : List Nat)
  deriving DecidableEq, Repr

/-- An address of a host, with a scope where one is given, and a port. -/
structure SocketAddress where
  host : HostAddress
  scope : Nat := 0
  port : Nat
  deriving DecidableEq, Repr

/-! ### Writing -/

def hexText (n : Nat) : String := String.ofList (Nat.toDigits 16 n)

def dotted (octets : List Nat) : String := ".".intercalate (octets.map toString)

def colons (groups : List Nat) : String := ":".intercalate (groups.map hexText)

/-- Where the longest run of zeros begins and how long it is, the first of equal ones; `run` counts
the zeros just before the list, which begins at index `i`. -/
def longestZeros (best : Nat × Nat) (run i : Nat) : List Nat → Nat × Nat
  | [] => best
  | g :: rest =>
    if g = 0 then
      let best := if best.2 < run + 1 then (i - run, run + 1) else best
      longestZeros best (run + 1) (i + 1) rest
    else longestZeros best 0 (i + 1) rest

def groupsText (groups : List Nat) : String :=
  match groups with
  | [0, 0, 0, 0, 0, 0xFFFF, a, b] => "::ffff:" ++ dotted [a / 256, a % 256, b / 256, b % 256]
  | _ =>
    let (start, length) := longestZeros (0, 0) 0 0 groups
    if 1 < length then
      colons (groups.take start) ++ "::" ++ colons (groups.drop (start + length))
    else colons groups

def HostAddress.text : HostAddress → String
  | .v4 octets => dotted octets
  | .v6 groups => groupsText groups

def SocketAddress.text (a : SocketAddress) : String :=
  match a.host with
  | .v4 octets => dotted octets ++ ":" ++ toString a.port
  | .v6 groups =>
    let scope := if a.scope = 0 then "" else "%" ++ toString a.scope
    "[" ++ groupsText groups ++ scope ++ "]:" ++ toString a.port

/-! ### Reading -/

/-- A reader gives a value and the characters behind it. -/
abbrev Reader (α : Type) := List Char → Option (α × List Char)

def digit? (base : Nat) (c : Char) : Option Nat :=
  let n := c.toNat
  let v := if 0x30 ≤ n && n ≤ 0x39 then n - 0x30
    else if 0x61 ≤ n && n ≤ 0x7A then n - 0x57
    else if 0x41 ≤ n && n ≤ 0x5A then n - 0x37
    else base
  if v < base then some v else none

def digits (base : Nat) : List Char → List Nat × List Char
  | [] => ([], [])
  | c :: r =>
    match digit? base c with
    | some d => let (ds, rest) := digits base r; (d :: ds, rest)
    | none => ([], c :: r)

/-- Reads a number below `limit` of at most `most` digits. -/
def number (base limit : Nat) (most : Option Nat) (zeroFirst : Bool) : Reader Nat := fun s =>
  let (ds, rest) := digits base s
  let value := ds.foldl (fun n d => n * base + d) 0
  if ds = [] || (most.any (· < ds.length)) || limit ≤ value
    || (!zeroFirst && ds.head? == some 0 && 1 < ds.length) then none
  else some (value, rest)

def character (c : Char) : Reader Unit
  | d :: r => if c = d then some ((), r) else none
  | [] => none

def octets : Reader (List Nat) := fun s => do
  let octet := number 10 256 (some 3) false
  let (a, s) ← octet s
  let (_, s) ← character '.' s
  let (b, s) ← octet s
  let (_, s) ← character '.' s
  let (c, s) ← octet s
  let (_, s) ← character '.' s
  let (d, s) ← octet s
  return ([a, b, c, d], s)

/-- Reads at most `limit` groups, of which the last two may be written as octets; the flag says that
they were. `first` says that no colon comes before the next one. -/
def groups (limit : Nat) (first : Bool) (s : List Char) : List Nat × Bool × List Char :=
  match limit with
  | 0 => ([], false, s)
  | limit + 1 =>
    let start := if first then some s else (character ':' s).map (·.2)
    match start with
    | none => ([], false, s)
    | some inner =>
      match if limit = 0 then none else octets inner with
      | some ([a, b, c, d], rest) => ([a * 256 + b, c * 256 + d], true, rest)
      | _ =>
        match number 16 65536 (some 4) true inner with
        | none => ([], false, s)
        | some (g, rest) =>
          let (gs, embedded, rest) := groups limit false rest
          (g :: gs, embedded, rest)

/-- Reads eight groups, of which one run of zeros may be left out. -/
def eightGroups : Reader (List Nat) := fun s =>
  match groups 8 true s with
  | (head, embedded, rest) =>
    if head.length = 8 then some (head, rest)
    else if embedded then none
    else do
      let (_, rest) ← character ':' rest
      let (_, rest) ← character ':' rest
      let (tail, _, rest) := groups (7 - head.length) true rest
      return (head ++ List.replicate (8 - head.length - tail.length) 0 ++ tail, rest)

def port : Reader Nat := number 10 65536 none true

def socketAddress : Reader SocketAddress := fun s =>
  let short := do
    let (os, s) ← octets s
    let (_, s) ← character ':' s
    let (p, s) ← port s
    return (⟨.v4 os, 0, p⟩, s)
  let long := do
    let (_, s) ← character '[' s
    let (gs, s) ← eightGroups s
    let (scope, s) ← match character '%' s with
      | some (_, s) => number 10 Word.count32 none true s
      | none => some (0, s)
    let (_, s) ← character ']' s
    let (_, s) ← character ':' s
    let (p, s) ← port s
    return (⟨.v6 gs, scope, p⟩, s)
  short <|> long

def SocketAddress.ofText? (s : String) : Option SocketAddress :=
  match socketAddress s.toList with
  | some (a, []) => some a
  | _ => none

end ScriptGate.Net
