import ScriptGate.Lua.Library.Argument

/-!
# Functions on tables

They work on the entries of a table as they are, without metamethods.
-/

namespace ScriptGate.Lua.Library.Collection

abbrev Effect := Result (List Value × Heap)

def at_ (h : Heap) (place : Nat) (i : Int) : Value := h.rawGet place (.int (Int64.ofInt i))

def put (h : Heap) (place : Nat) (i : Int) (v : Value) : Heap :=
  h.rawSet place (.int (Int64.ofInt i)) v

def length (h : Heap) (place : Nat) : Int := (h.table place).length

def shiftUp (h : Heap) (place : Nat) (i : Int) : (count : Nat) → Heap
  | 0 => h
  | count + 1 => shiftUp (put h place (i + count + 1) (at_ h place (i + count))) place i count

/-- Moves the `count` values after `i` by one place down. -/
def shiftDown (h : Heap) (place : Nat) (i : Int) : (count : Nat) → Heap
  | 0 => h
  | count + 1 => shiftDown (put h place i (at_ h place (i + 1))) place (i + 1) count

def insert (h : Heap) (a : Args) : Effect := do
  let t ← a.table 0
  let n := length h t
  match a.values.length with
  | 2 => return ([], put h t (n + 1) (a.get 1))
  | 3 =>
    let i ← a.int 1
    if i < 1 ∨ n + 1 < i then a.fail 1 "position out of bounds"
    else return ([], put (shiftUp h t i (n + 1 - i).toNat) t i (a.get 2))
  | _ => .error "wrong number of arguments to 'insert'"

def remove (h : Heap) (a : Args) : Effect := do
  let t ← a.table 0
  let n := length h t
  let i ← a.intOr 1 n
  if 1 < a.values.length ∧ (n + 1 < i ∨ (i < 1 ∧ ¬(n = 0 ∧ i = 0))) then
    a.fail 1 "position out of bounds"
  else
    let removed := at_ h t i
    let h := if i < n then shiftDown h t i (n - i).toNat else h
    let last := if i < n then n else i
    return ([removed], put h t last .nil)

def concat (h : Heap) (a : Args) : Effect := do
  let t ← a.table 0
  let sep ← a.textOr 1 []
  let i ← a.intOr 2 1
  let j ← a.intOr 3 (length h t)
  let parts ← (List.range (j + 1 - i).toNat).mapM fun (k : Nat) => do
    match (at_ h t (i + k)).toText? with
    | some s => pure s
    | none => .error ("invalid value (at index " ++ toString (i + k) ++ ") in table for 'concat'")
  return ([.str (List.intercalate sep parts)], h)

def pack (h : Heap) (a : Args) : Effect :=
  let t := (Table.ofList a.values).set (.text "n") (.ofNat a.values.length)
  let (v, h) := h.newTable t
  .ok ([v], h)

def maxValues : Int := 1000000

def unpack (h : Heap) (a : Args) : Effect := do
  let i ← a.intOr 1 1
  match a.get 0 with
  | .table t =>
    let j ← a.intOr 2 (length h t)
    if maxValues ≤ j - i then .error "too many results to unpack"
    else return ((List.range (j + 1 - i).toNat).map fun (k : Nat) => at_ h t (i + k), h)
  | _ =>
    let j ← a.int 2
    if j < i then return ([], h) else a.wrongType 0 "table"

/-- Copies `count` values, the first one first or the last one first. -/
def copy (h : Heap) (source target : Nat) (i k : Int) (upward : Bool) (count : Nat) : Heap :=
  let places := List.range count
  (if upward then places else places.reverse).foldl
    (fun h (n : Nat) => put h target (k + n) (at_ h source (i + n))) h

def move (h : Heap) (a : Args) : Effect := do
  let source ← a.table 0
  let i ← a.int 1
  let j ← a.int 2
  let k ← a.int 3
  let target ← if (a.get 4).isNil then pure source else a.table 4
  if j < i then return ([.table target], h)
  else if maxValues * 100 ≤ j - i then a.fail 2 "too many elements to move"
  else
    let upward := j < k ∨ k ≤ i ∨ source ≠ target
    return ([.table target], copy h source target i k upward (j + 1 - i).toNat)

/-! ### Sorting -/

inductive SortStep where
  | sorted (values : List Value)
  | compare (m : Merge) (first second : Value)

/-- The runs of a sort that has not begun: single values. -/
def mergeOf (values : List Value) : Merge := ⟨values.map ([·]), [], [], [], []⟩

def sortStep : (fuel : Nat) → Merge → SortStep
  | 0, m => .sorted (m.out.reverse ++ m.left ++ m.right)
  | fuel + 1, m =>
    match m.left, m.right with
    | x :: _, y :: _ => .compare m y x
    | left, right =>
      let run := m.out.reverse ++ left ++ right
      let done := if run = [] then m.done else run :: m.done
      match m.todo, done with
      | a :: b :: rest, _ => sortStep fuel ⟨rest, done, a, b, []⟩
      | [a], [] => .sorted a
      | [], [] => .sorted []
      | [], [a] => .sorted a
      | rest, _ => sortStep fuel ⟨(rest.reverse ++ done).reverse, [], [], [], []⟩

def afterComparison (m : Merge) (secondFirst : Bool) : Merge :=
  match m.left, m.right with
  | x :: left, y :: right =>
    if secondFirst then { m with right, out := y :: m.out } else { m with left, out := x :: m.out }
  | _, _ => m

def values (h : Heap) (place : Nat) : List Value :=
  (List.range (length h place).toNat).map fun (i : Nat) => at_ h place (i + 1)

def putAll (h : Heap) (place : Nat) (vs : List Value) : Heap :=
  (vs.zipIdx 1).foldl (fun h p => put h place p.2 p.1) h

end ScriptGate.Lua.Library.Collection
