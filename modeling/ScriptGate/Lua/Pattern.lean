import ScriptGate.Bytes

/-!
# Text patterns

Matching of a text against a pattern of the guest language: classes, sets, repetition, captures,
balanced pairs and frontiers. Every step of the matcher costs a unit of fuel; `fuelFor` gives more
than any match needs, up to a bound at which a pattern counts as too complex.
-/

namespace ScriptGate.Lua.Pattern

inductive Extent where
  | unfinished
  | position
  | length (n : Nat)
  deriving DecidableEq, Inhabited

structure Capture where
  start : Nat
  extent : Extent
  deriving Inhabited

structure Match where
  stop : Nat
  captures : Array Capture

def escape : UInt8 := 0x25

def isLower (b : UInt8) : Bool := 0x61 ≤ b && b ≤ 0x7A
def isUpper (b : UInt8) : Bool := 0x41 ≤ b && b ≤ 0x5A
def isDigit (b : UInt8) : Bool := 0x30 ≤ b && b ≤ 0x39
def isAlpha (b : UInt8) : Bool := isLower b || isUpper b
def toLower (b : UInt8) : UInt8 := if isUpper b then b + 0x20 else b
def toUpper (b : UInt8) : UInt8 := if isLower b then b - 0x20 else b

/-- Whether a byte is in the class of a letter; upper case means the complement. -/
def inClass (b letter : UInt8) : Bool :=
  let graphic := 0x21 ≤ b && b ≤ 0x7E
  let alnum := isAlpha b || isDigit b
  let member : Option Bool :=
    match Char.ofNat (toLower letter).toNat with
    | 'a' => some (isAlpha b)
    | 'c' => some (b < 0x20 || b == 0x7F)
    | 'd' => some (isDigit b)
    | 'g' => some graphic
    | 'l' => some (isLower b)
    | 'p' => some (graphic && !alnum)
    | 's' => some (b == 0x20 || (0x09 ≤ b && b ≤ 0x0D))
    | 'u' => some (isUpper b)
    | 'w' => some alnum
    | 'x' => some (Bytes.hexValue? b).isSome
    | _ => none
  match member with
  | some m => if isUpper letter then !m else m
  | none => letter == b

/-- The place behind the single item at `p`. -/
def itemEnd (pat : Array UInt8) (p : Nat) : Except String Nat :=
  match pat[p]? with
  | none => .error "malformed pattern"
  | some c =>
    if c = escape then
      if p + 1 < pat.size then .ok (p + 2) else .error "malformed pattern (ends with '%')"
    else if c = 0x5B then
      let start := if pat[p + 1]? = some 0x5E then p + 2 else p + 1
      setEnd start true (pat.size + 1)
    else .ok (p + 1)
where
  /-- The place behind the set of which the items begin at `i`. -/
  setEnd (i : Nat) (first : Bool) : Nat → Except String Nat
    | 0 => .error "malformed pattern (missing ']')"
    | fuel + 1 =>
      match pat[i]? with
      | none => .error "malformed pattern (missing ']')"
      | some c =>
        if c = 0x5D && !first then .ok (i + 1)
        else if c = escape then setEnd (i + 2) false fuel
        else setEnd (i + 1) false fuel

/-- Whether a byte is in the set between `p`, at its bracket, and `stop`, at the closing one. -/
def inSet (pat : Array UInt8) (b : UInt8) (p stop : Nat) : Bool :=
  let negated := pat[p + 1]? = some 0x5E
  let start := if negated then p + 2 else p + 1
  let found := go start (stop + 1)
  if negated then !found else found
where
  go (i : Nat) : Nat → Bool
    | 0 => false
    | fuel + 1 =>
      if stop ≤ i then false
      else
        let c := pat.getD i 0
        if c = escape then inClass b (pat.getD (i + 1) 0) || go (i + 2) fuel
        else if pat[i + 1]? = some 0x2D && i + 2 < stop then
          (c ≤ b && b ≤ pat.getD (i + 2) 0) || go (i + 3) fuel
        else c == b || go (i + 1) fuel

def fits (src pat : Array UInt8) (s p e : Nat) : Bool :=
  match src[s]? with
  | none => false
  | some b =>
    match pat.getD p 0 with
    | 0x2E => true
    | 0x25 => inClass b (pat.getD (p + 1) 0)
    | 0x5B => inSet pat b p (e - 1)
    | c => c == b

def countFits (src pat : Array UInt8) (s p e : Nat) : Nat → Nat
  | 0 => 0
  | fuel + 1 => if fits src pat s p e then countFits src pat (s + 1) p e fuel + 1 else 0

/-- The place behind the text that begins with one byte and is balanced with respect to two. -/
def balanced (src : Array UInt8) (opening closing : UInt8) (s depth : Nat) : Nat → Option Nat
  | 0 => none
  | fuel + 1 =>
    match src[s]? with
    | none => none
    | some b =>
      if b = closing then
        if depth = 1 then some (s + 1) else balanced src opening closing (s + 1) (depth - 1) fuel
      else if b = opening then balanced src opening closing (s + 1) (depth + 1) fuel
      else balanced src opening closing (s + 1) depth fuel

def slice (src : Array UInt8) (i j : Nat) : Bytes := (src.extract i j).toList

/-- Sets the extent of the last capture that is not finished. -/
def finishCapture (caps : Array Capture) (s : Nat) : Except String (Array Capture) :=
  let isOpen (i : Nat) : Bool := (caps.getD i default).extent = .unfinished
  match (List.range caps.size).reverse.find? isOpen with
  | none => .error "invalid pattern capture"
  | some i =>
    let c := caps.getD i default
    .ok (caps.setIfInBounds i { c with extent := .length (s - c.start) })

def run (src pat : Array UInt8) (fuel s p : Nat) (caps : Array Capture) :
    Except String (Option Match) :=
  match fuel with
  | 0 => .error "pattern too complex"
  | fuel + 1 =>
    match pat[p]? with
    | none => .ok (some ⟨s, caps⟩)
    | some c =>
      let nextChar := pat[p + 1]?
      if c = 0x28 then
        if nextChar = some 0x29 then run src pat fuel s (p + 2) (caps.push ⟨s, .position⟩)
        else run src pat fuel s (p + 1) (caps.push ⟨s, .unfinished⟩)
      else if c = 0x29 then
        match finishCapture caps s with
        | .error e => .error e
        | .ok caps => run src pat fuel s (p + 1) caps
      else if c = 0x24 && p + 1 = pat.size then
        .ok (if s = src.size then some ⟨s, caps⟩ else none)
      else if c = escape && nextChar = some 0x62 then
        match pat[p + 2]?, pat[p + 3]? with
        | some opening, some closing =>
          if src[s]? = some opening then
            match balanced src opening closing (s + 1) 1 (src.size + 1) with
            | some s => run src pat fuel s (p + 4) caps
            | none => .ok none
          else .ok none
        | _, _ => .error "malformed pattern (missing arguments to '%b')"
      else if c = escape && nextChar = some 0x66 then
        if pat[p + 2]? = some 0x5B then
          match itemEnd pat (p + 2) with
          | .error e => .error e
          | .ok e =>
            let before := if s = 0 then 0 else src.getD (s - 1) 0
            if !inSet pat before (p + 2) (e - 1) && inSet pat (src.getD s 0) (p + 2) (e - 1) then
              run src pat fuel s e caps
            else .ok none
        else .error "missing '[' after '%f' in pattern"
      else if c = escape && nextChar.any isDigit then
        let i := (pat.getD (p + 1) 0).toNat - 0x30
        match if i = 0 then none else caps[i - 1]? with
        | some ⟨start, .length n⟩ =>
          if s + n ≤ src.size && slice src start (start + n) = slice src s (s + n) then
            run src pat fuel (s + n) (p + 2) caps
          else .ok none
        | _ => .error ("invalid capture index %" ++ toString i)
      else
        match itemEnd pat p with
        | .error e => .error e
        | .ok e =>
          match pat[e]? with
          | some 0x3F =>
            if fits src pat s p e then
              match run src pat fuel (s + 1) (e + 1) caps with
              | .ok none => run src pat fuel s (e + 1) caps
              | found => found
            else run src pat fuel s (e + 1) caps
          | some 0x2A => expand fuel s (e + 1) (countFits src pat s p e (src.size + 1)) 0 caps
          | some 0x2B =>
            if fits src pat s p e then
              expand fuel s (e + 1) (countFits src pat s p e (src.size + 1)) 1 caps
            else .ok none
          | some 0x2D => shrink fuel s p e caps
          | _ => if fits src pat s p e then run src pat fuel (s + 1) e caps else .ok none
where
  /-- Tries the rest of the pattern after `count` repetitions, then after one less, down to
  `least`. -/
  expand (fuel s p count least : Nat) (caps : Array Capture) : Except String (Option Match) :=
    match fuel with
    | 0 => .error "pattern too complex"
    | fuel + 1 =>
      if count < least then .ok none
      else
        match run src pat fuel (s + count) p caps with
        | .ok none =>
          if count = 0 then .ok none else expand fuel s p (count - 1) least caps
        | found => found
  /-- Tries the rest of the pattern after ever more repetitions of the item from `p` to `e`. -/
  shrink (fuel s p e : Nat) (caps : Array Capture) : Except String (Option Match) :=
    match fuel with
    | 0 => .error "pattern too complex"
    | fuel + 1 =>
      match run src pat fuel s (e + 1) caps with
      | .ok none => if fits src pat s p e then shrink fuel (s + 1) p e caps else .ok none
      | found => found

def fuelFor (src pat : Array UInt8) : Nat := (src.size + 2) * (pat.size + 2) + 200

/-- The first match at place `s` or behind it, with the place where it begins; at `s` only when
`anchored`. -/
def search (src pat : Array UInt8) (p : Nat) (anchored : Bool) (s : Nat) :
    (tries : Nat) → Except String (Option (Nat × Match))
  | 0 => .ok none
  | tries + 1 =>
    match run src pat (fuelFor src pat) s p #[] with
    | .error e => .error e
    | .ok (some m) => .ok (some (s, m))
    | .ok none => if anchored then .ok none else search src pat p anchored (s + 1) tries

def isSpecial (b : UInt8) : Bool :=
  [0x5E, 0x24, 0x2A, 0x2B, 0x3F, 0x2E, 0x28, 0x5B, 0x25, 0x2D].contains b

def findPlain (src what : Array UInt8) (s : Nat) : (tries : Nat) → Option Nat
  | 0 => none
  | tries + 1 =>
    if src.size < s + what.size then none
    else if slice src s (s + what.size) = what.toList then some s
    else findPlain src what (s + 1) tries

end ScriptGate.Lua.Pattern
