import ScriptGate.Lua.Lexeme
import ScriptGate.Lua.Library.Text
import ScriptGate.Word

/-!
# Functions on encoded code points
-/

namespace ScriptGate.Lua.Library.Unicode

/-- A byte in the middle of a code point. -/
def isTail (b : UInt8) : Bool := b / 64 == 2

/-- The code point at the beginning of a text and how many bytes it takes; surrogates and code
points above the last one only where `lax`. -/
def decode (lax : Bool) (s : Bytes) : Option (Nat × Nat) :=
  match s with
  | [] => none
  | b :: r =>
    let read (tails lead least : Nat) : Option (Nat × Nat) :=
      let ts := (r.take tails).takeWhile isTail
      if ts.length < tails then none
      else
        let n := ts.foldl (fun n t => n * 64 + t.toNat % 64) lead
        let strict := n ≤ 0x10FFFF && !(0xD800 ≤ n && n ≤ 0xDFFF)
        if n < least || (!lax && !strict) then none else some (n, tails + 1)
    if b < 0x80 then some (b.toNat, 1)
    else if b < 0xC0 then none
    else if b < 0xE0 then read 1 (b.toNat % 32) 0x80
    else if b < 0xF0 then read 2 (b.toNat % 16) 0x800
    else if b < 0xF8 then read 3 (b.toNat % 8) 0x10000
    else if b < 0xFC then read 4 (b.toNat % 4) 0x200000
    else if b < 0xFE then read 5 (b.toNat % 2) 0x4000000
    else none

/-- A place that may count from the end. -/
def relative (i : Int) (n : Nat) : Int :=
  if 0 ≤ i then i else if (n : Int) < -i then 0 else n + i + 1

def char (a : Args) : Result (List Value) := do
  let parts ← (List.range a.values.length).mapM fun i => do
    let n ← a.int i
    if 0 ≤ n ∧ n ≤ Word.greatest32 then pure (Lexeme.utf8 n.toNat)
    else a.fail i "value out of range"
  return [.str parts.flatten]

/-- The code points from place `i` to place `j`, both from zero on. -/
def points (lax : Bool) (s : Bytes) (i j : Nat) : (fuel : Nat) → Result (List Value)
  | 0 => .ok []
  | fuel + 1 =>
    if j < i then .ok []
    else
      match decode lax (s.drop i) with
      | none => .error "invalid UTF-8 code"
      | some (n, k) => do return .ofNat n :: (← points lax s (i + k) j fuel)

def codepoint (a : Args) : Result (List Value) := do
  let s ← a.text 0
  let i := relative (← a.intOr 1 1) s.length
  let j := relative (← a.intOr 2 i) s.length
  if i < 1 then a.fail 1 "out of bounds"
  else if (s.length : Int) < j then a.fail 2 "out of bounds"
  else if j < i then return []
  else points (a.get 3).isTrue s (i.toNat - 1) (j.toNat - 1) (s.length + 1)

/-- How many code points begin between two places, or where the first bad one is. -/
def count (lax : Bool) (s : Bytes) (i : Nat) (j : Int) (n : Nat) : (fuel : Nat) → Except Nat Nat
  | 0 => .ok n
  | fuel + 1 =>
    if j < i then .ok n
    else
      match decode lax (s.drop i) with
      | none => .error i
      | some (_, k) => count lax s (i + k) j (n + 1) fuel

def len (a : Args) : Result (List Value) := do
  let s ← a.text 0
  let i := relative (← a.intOr 1 1) s.length
  let j := relative (← a.intOr 2 (-1)) s.length
  if i < 1 ∨ (s.length : Int) + 1 < i then a.fail 1 "initial position out of bounds"
  else if (s.length : Int) < j then a.fail 2 "final position out of bounds"
  else
    match count (a.get 3).isTrue s (i.toNat - 1) (j - 1) 0 (s.length + 1) with
    | .ok n => return [.ofNat n]
    | .error at_ => return [.nil, .ofNat (at_ + 1)]

def backToStart (s : Array UInt8) : Nat → Nat
  | 0 => 0
  | i + 1 => if isTail (s.getD (i + 1) 0) then backToStart s i else i + 1

def onToStart (s : Array UInt8) (i : Nat) : (fuel : Nat) → Nat
  | 0 => i
  | fuel + 1 => if isTail (s.getD i 0) then onToStart s (i + 1) fuel else i

def back (s : Array UInt8) : (n : Nat) → Nat → Option Nat
  | 0, i => some i
  | n + 1, i => if i = 0 then none else back s n (backToStart s (i - 1))

def on (s : Array UInt8) : (n : Nat) → Nat → Option Nat
  | 0, i => some i
  | n + 1, i => if s.size ≤ i then none else on s n (onToStart s (i + 1) s.size)

def offset (a : Args) : Result (List Value) := do
  let s := (← a.text 0).toArray
  let n ← a.int 1
  let i := relative (← a.intOr 2 (if 0 < n then 1 else s.size + 1)) s.size
  if i < 1 ∨ (s.size : Int) + 1 < i then a.fail 2 "position out of bounds"
  else
    let i := i.toNat - 1
    if n = 0 then return [.ofNat (backToStart s i + 1)]
    else if isTail (s.getD i 0) then .error "initial position is a continuation byte"
    else
      let found := if n < 0 then back s n.natAbs i else on s (n.toNat - 1) i
      return [match found with
        | some i => .ofNat (i + 1)
        | none => .nil]

def next (a : Args) : Result (List Value) := do
  let s ← a.text 0
  let bytes := s.toArray
  let i := (← a.int 1).toNat
  let i := onToStart bytes i bytes.size
  if bytes.size ≤ i then return []
  else
    match decode false (s.drop i) with
    | none => .error "invalid UTF-8 code"
    | some (n, _) => return [.ofNat (i + 1), .ofNat n]

def charPattern : Bytes := [
  0x5B, 0x00, 0x2D, 0x7F, 0xC2, 0x2D, 0xFD, 0x5D, 0x5B, 0x80, 0x2D, 0xBF, 0x5D, 0x2A]

end ScriptGate.Lua.Library.Unicode
