import ScriptGate.Lua.Library.Argument
import ScriptGate.Lua.Pattern

/-!
# Functions on texts

Places count from one, and from the end where they are negative. Functions that match patterns give
the captures of a match, or the whole match where it has none.
-/

namespace ScriptGate.Lua.Library.Text

def startAt (i : Int) (n : Nat) : Nat :=
  if 0 < i then i.toNat else if i = 0 then 1 else if i < -(n : Int) then 1 else (n + i + 1).toNat

def stopAt (j : Int) (n : Nat) : Nat :=
  if (n : Int) < j then n else if 0 ≤ j then j.toNat
  else if j < -(n : Int) then 0 else (n + j + 1).toNat

def range (s : Bytes) (i j : Nat) : Bytes := if i ≤ j then (s.drop (i - 1)).take (j + 1 - i) else []

def one (s : Bytes) : Result (List Value) := .ok [.str s]

def sub (a : Args) : Result (List Value) := do
  let s ← a.text 0
  one (range s (startAt (← a.int 1) s.length) (stopAt (← a.intOr 2 (-1)) s.length))

def byte (a : Args) : Result (List Value) := do
  let s ← a.text 0
  let i ← a.intOr 1 1
  let stop := stopAt (← a.intOr 2 i) s.length
  return (range s (startAt i s.length) stop).map fun b => .ofNat b.toNat

def char (a : Args) : Result (List Value) := do
  let bytes ← (List.range a.values.length).mapM fun i => do
    let n ← a.int i
    if 0 ≤ n ∧ n < 256 then pure (UInt8.ofNat n.toNat) else a.fail i "value out of range"
  one bytes

def len (a : Args) : Result (List Value) := do return [.ofNat (← a.text 0).length]

def lower (a : Args) : Result (List Value) := do one ((← a.text 0).map Pattern.toLower)

def upper (a : Args) : Result (List Value) := do one ((← a.text 0).map Pattern.toUpper)

def reverse (a : Args) : Result (List Value) := do one (← a.text 0).reverse

def maxRepeated : Nat := 1073741824

def repeated (s sep : Bytes) : Nat → Bytes
  | 0 => []
  | 1 => s
  | n + 1 => s ++ (sep ++ repeated s sep n)

def rep (a : Args) : Result (List Value) := do
  let s ← a.text 0
  let n ← a.int 1
  let sep ← a.textOr 2 []
  if n ≤ 0 then one []
  else if s = [] ∧ sep = [] then one []
  else if (maxRepeated : Int) < (s.length + sep.length) * n then .error "resulting string too large"
  else one (repeated s sep n.toNat)

/-- A compiled function as a text: its mark alone. -/
def dump (a : Args) : Result (List Value) := do
  match a.get 0 with
  | .closure _ => one [0x1B, 0x4C, 0x75, 0x61]
  | .builtin _ | .host _ => .error "unable to dump given function"
  | _ => a.wrongType 0 "function"

/-! ### Patterns -/

def capture (src : Array UInt8) (c : Pattern.Capture) : Result Value :=
  match c.extent with
  | .length n => .ok (.str (Pattern.slice src c.start (c.start + n)))
  | .position => .ok (.ofNat (c.start + 1))
  | .unfinished => .error "unfinished capture"

/-- The captures of a match from `s` on; the whole match where there are none. -/
def captures (src : Array UInt8) (s : Nat) (m : Pattern.Match) : Result (List Value) :=
  if m.captures.isEmpty then .ok [.str (Pattern.slice src s m.stop)]
  else m.captures.toList.mapM (capture src)

/-- A pattern with the place where it begins, and whether it is tied to the place of the attempt. -/
def anchored (pat : Array UInt8) : Nat × Bool :=
  if pat[0]? = some 0x5E then (1, true) else (0, false)

def findIn (a : Args) (find : Bool) : Result (List Value) := do
  let s ← a.text 0
  let p ← a.text 1
  let init := startAt (← a.intOr 2 1) s.length - 1
  let src := s.toArray
  let pat := p.toArray
  if src.size < init then return [.nil]
  if find && ((a.get 3).isTrue || !p.any Pattern.isSpecial) then
    match Pattern.findPlain src pat init (src.size + 2) with
    | some i => return [.ofNat (i + 1), .ofNat (i + pat.size)]
    | none => return [.nil]
  else
    let (start, tied) := anchored pat
    match ← Pattern.search src pat start tied init (src.size + 1 - init) with
    | none => return [.nil]
    | some (i, m) =>
      let caps ← captures src i m
      if find then
        return .ofNat (i + 1) :: .ofNat m.stop :: (if m.captures.isEmpty then [] else caps)
      else return caps

def find (a : Args) : Result (List Value) := findIn a true

def «match» (a : Args) : Result (List Value) := findIn a false

def nextMatch (src pat : Array UInt8) (lastEnd : Option Nat) (s : Nat) :
    (tries : Nat) → Result (Option (List Value × Nat))
  | 0 => .ok none
  | tries + 1 =>
    match Pattern.run src pat (Pattern.fuelFor src pat) s 0 #[] with
    | .error e => .error e
    | .ok (some m) =>
      if lastEnd = some m.stop then nextMatch src pat lastEnd (s + 1) tries
      else do return some (← captures src s m, m.stop)
    | .ok none => nextMatch src pat lastEnd (s + 1) tries

/-! ### Replacement -/

def expand (src : Array UInt8) (s : Nat) (m : Pattern.Match) (out : Array UInt8) :
    Bytes → Result (Array UInt8)
  | [] => .ok out
  | 0x25 :: c :: r =>
    if c = 0x25 then expand src s m (out.push 0x25) r
    else if c = 0x30 then expand src s m (out ++ src.extract s m.stop) r
    else if Pattern.isDigit c then
      let i := c.toNat - 0x31
      let value := match m.captures[i]? with
        | some cap => capture src cap
        | none => if i = 0 then .ok (.str (Pattern.slice src s m.stop))
          else .error ("invalid capture index %" ++ toString (i + 1) ++ " in replacement string")
      match value with
      | .error e => .error e
      | .ok v => expand src s m (out ++ (v.toText?.getD []).toArray) r
    else .error "invalid use of '%' in replacement string"
  | [0x25] => .error "invalid use of '%' in replacement string"
  | b :: r => expand src s m (out.push b) r

inductive Step where
  | done (r : Replacement)
  /-- A value has to be asked for: the captures, the whole match, and where it ends. -/
  | ask (r : Replacement) (captures : List Value) (whole : Bytes) (stop : Nat)

/-- Goes on with a replacement until it is done or a value has to be asked for. -/
def replaceStep (r : Replacement) (last : Option Nat) : (fuel : Nat) → Result Step
  | 0 => .ok (.done r)
  | fuel + 1 =>
    let finish : Result Step :=
      .ok (.done { r with out := r.out ++ r.src.extract r.at_ r.src.size })
    if r.limit ≤ r.count then finish
    else
      match Pattern.run r.src r.pat (Pattern.fuelFor r.src r.pat) r.at_ r.start #[] with
      | .error e => .error e
      | .ok found =>
        match found.filter fun m => last != some m.stop with
        | some m =>
          let next : Replacement := { r with at_ := m.stop, count := r.count + 1 }
          match r.replace.toText? with
          | some text => do
            let out ← expand r.src r.at_ m r.out text
            let next := { next with out }
            if r.anchored then
              return .done { next with out := next.out ++ r.src.extract next.at_ r.src.size }
            else replaceStep next (some m.stop) fuel
          | none => do
            let caps ← captures r.src r.at_ m
            return .ask next caps (Pattern.slice r.src r.at_ m.stop) m.stop
        | none =>
          match r.src[r.at_]? with
          | none => .ok (.done r)
          | some b =>
            let next : Replacement := { r with at_ := r.at_ + 1, out := r.out.push b }
            if r.anchored then
              .ok (.done { next with out := next.out ++ r.src.extract next.at_ r.src.size })
            else replaceStep next last fuel

def answer (r : Replacement) (v : Value) (whole : Bytes) : Result Replacement :=
  if !v.isTrue then .ok { r with out := r.out ++ whole.toArray }
  else
    match v.toText? with
    | some text => .ok { r with out := r.out ++ text.toArray }
    | none => .error ("invalid replacement value (a " ++ v.typeName ++ ")")

def replacement (a : Args) : Result Replacement := do
  let src := (← a.text 0).toArray
  let pat := (← a.text 1).toArray
  let ok := match a.get 2 with
    | .number _ | .str _ | .table _ => true
    | v => Args.isCallable v
  if !ok then a.wrongType 2 "string/function/table"
  else
    let limit ← a.intOr 3 (src.size + 1 : Nat)
    let (start, tied) := anchored pat
    return {
      src, pat, start, anchored := tied, replace := a.get 2
      at_ := 0, out := #[], count := 0, limit := limit.toNat }

def replaceFuel (r : Replacement) : Nat := 2 * r.src.size + 4

end ScriptGate.Lua.Library.Text
