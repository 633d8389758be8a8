import ScriptGate.Lua.Library.Argument

/-!
# Functions on numbers
-/

namespace ScriptGate.Lua.Library.Arithmetic

/-- A double as an integer where it is one that fits, else as it is. -/
def integral (x : Binary64) : Value :=
  match Number.toInt? (.float x) with
  | some i => .int i
  | none => .float x

def number (n : Number) : Result (List Value) := .ok [.number n]

def machine (f : Float → Float) (a : Args) : Result (List Value) := do
  return [.float (Binary64.ofFloat (f (← a.float 0).toFloat))]

def abs (a : Args) : Result (List Value) := do
  match ← a.number 0 with
  | .int i => number (.int (if i < 0 then -i else i))
  | .float x => number (.float x.abs)

def ceil (a : Args) : Result (List Value) := do
  match ← a.number 0 with
  | .int i => number (.int i)
  | .float x => return [integral x.ceilFloat]

def floor (a : Args) : Result (List Value) := do
  match ← a.number 0 with
  | .int i => number (.int i)
  | .float x => return [integral x.floorFloat]

def fmod (a : Args) : Result (List Value) := do
  match ← a.number 0, ← a.number 1 with
  | .int x, .int y =>
    if y = 0 then a.fail 1 "zero" else number (.int (Int64.ofInt (Int.tmod x.toInt y.toInt)))
  | x, y => number (.float (x.toFloat.remainder y.toFloat))

def log (a : Args) : Result (List Value) := do
  let x := (← a.float 0).toFloat
  if (a.get 1).isNil then return [.float (Binary64.ofFloat x.log)]
  let base := (← a.float 1).toFloat
  let r := if base == 2.0 then x.log2 else if base == 10.0 then x.log10 else x.log / base.log
  return [.float (Binary64.ofFloat r)]

def atan (a : Args) : Result (List Value) := do
  let y ← a.float 0
  let x ← if (a.get 1).isNil then pure (Binary64.ofInt 1) else a.float 1
  return [.float (Binary64.ofFloat (Float.atan2 y.toFloat x.toFloat))]

/-- The argument that no other one beats. -/
def extreme (beats : Number → Number → Bool) (a : Args) : Result (List Value) := do
  let first ← a.number 0
  let rest ← (List.range (a.values.length - 1)).mapM fun i => a.number (i + 1)
  number (rest.foldl (fun best n => if beats n best then n else best) first)

def modf (a : Args) : Result (List Value) := do
  match a.get 0 with
  | .number (.int i) => return [.int i, .float ⟨0⟩]
  | _ =>
    let x ← a.float 0
    if x.isInfinite then return [.float x, .float ⟨0⟩]
    let whole := if x.isNegative then x.ceilFloat else x.floorFloat
    return [.float whole, .float (x.sub whole)]

def toInteger (a : Args) : Result (List Value) := do
  let v ← a.any 0
  return [match v.toInt? with
    | some i => .int i
    | none => .nil]

def type (a : Args) : Result (List Value) := do
  match ← a.any 0 with
  | .number (.int _) => return [.text "integer"]
  | .number (.float _) => return [.text "float"]
  | _ => return [.nil]

def ult (a : Args) : Result (List Value) := do
  return [.bool ((← a.int64 0).toUInt64 < (← a.int64 1).toUInt64)]

def advance (s : UInt64) : UInt64 := s * 6364136223846793005 + 1442695040888963407

def mix (s : UInt64) : UInt64 :=
  let z := (s ^^^ (s >>> 30)) * 0xBF58476D1CE4E5B9
  let z := (z ^^^ (z >>> 27)) * 0x94D049BB133111EB
  z ^^^ (z >>> 31)

def random (r : UInt64) (a : Args) : Result (List Value) := do
  if a.values.isEmpty then
    return [.float (Binary64.ofDyadic (r >>> 11).toNat (-53))]
  let first ← a.int 0
  if a.values.length = 1 ∧ first = 0 then return [.int r.toInt64]
  let (low, high) ← if a.values.length = 1 then pure (1, first) else do pure (first, ← a.int 1)
  if high < low then a.fail (a.values.length - 1) "interval is empty"
  else return [.int (Int64.ofInt (low + (r.toNat : Int) % (high - low + 1)))]

end ScriptGate.Lua.Library.Arithmetic
