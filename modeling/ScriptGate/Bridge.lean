import ScriptGate.Json.Basic
import ScriptGate.Lua.State
import ScriptGate.Text.Utf8
import ScriptGate.Word

/-!
# The bridge between JSON and guest values

`ofJson` brings a JSON value into the heap of a guest: a list becomes a table that is marked as an
array, an object a plain table, and null a value of its own, so that nothing is lost. `toJson` reads
a guest value back. A table that is marked as an array is a list; one whose keys are exactly 1 to n
is a list; any other is an object of the entries whose keys have a text. Both directions give up on
values that nest too deep, which also ends the walk through a table that contains itself.
-/

namespace ScriptGate.Bridge

open Lua (Value Heap Table)

inductive Fault where
  | tooDeep
  deriving DecidableEq, Repr

def maxDepth : Nat := 64

def Fault.message : Fault → String
  | .tooDeep => "value nesting exceeds " ++ toString maxDepth ++ " levels"

/-! ### From JSON -/

/-- An integer of sixty-four bits stays one, every other number is a double. -/
def number : Json.Number → Value
  | .int i _ =>
    if Word.IsSigned64 i then .int (Int64.ofInt i) else .float (Binary64.ofInt i)
  | .float x _ => .float x

mutual

/-- Brings a value that is inside `depth` containers into a heap. -/
def bring (depth : Nat) (v : Json) (h : Heap) : Except Fault (Value × Heap) :=
  if maxDepth < depth then .error .tooDeep
  else
    match v with
    | .null => .ok (.null, h)
    | .bool b => .ok (.bool b, h)
    | .num n => .ok (number n, h)
    | .str s => .ok (.text s, h)
    | .arr items => do
      let (vs, h) ← bringItems (depth + 1) items h
      return h.newTable { Table.ofList vs with metatable := some h.arrayMetatable }
    | .obj members => do
      let (es, h) ← bringMembers (depth + 1) members h
      return h.newTable (Table.ofEntries es)

def bringItems (depth : Nat) (items : List Json) (h : Heap) : Except Fault (List Value × Heap) :=
  match items with
  | [] => .ok ([], h)
  | v :: rest => do
    let (v, h) ← bring depth v h
    let (vs, h) ← bringItems depth rest h
    return (v :: vs, h)

def bringMembers (depth : Nat) (members : List (String × Json)) (h : Heap) :
    Except Fault (List (Value × Value) × Heap) :=
  match members with
  | [] => .ok ([], h)
  | (k, v) :: rest => do
    let (v, h) ← bring depth v h
    let (es, h) ← bringMembers depth rest h
    return ((.text k, v) :: es, h)

end

def ofJson (v : Json) (h : Heap) : Except Fault (Value × Heap) := bring 0 v h

/-! ### To JSON -/

/-- What is read of a table: the values at 1, 2, and so on of one that is marked as an array, and
all entries, in the order of their visits, of any other. -/
inductive Contents where
  | array (items : List Value)
  | entries (entries : List (Value × Value))

/-- The member of a metatable that marks an array. -/
def arrayMark : String := "__jsonarray"

def isArray (h : Heap) (t : Table) : Bool :=
  match t.metatable with
  | some m => (h.member m arrayMark).isTrue
  | none => false

def contents (h : Heap) (place : Nat) : Contents :=
  let t := h.table place
  if isArray h t then .array ((List.range t.length).map fun i => t.getNat (i + 1))
  else .entries t.entries

/-- The place of a key of a list of `n` items. -/
def position? (n : Nat) : Value → Option Nat
  | .number (.int i) => if 1 ≤ i.toInt ∧ i.toInt ≤ n then some (i.toInt.toNat - 1) else none
  | _ => none

/-- The items of a table whose keys are exactly 1 to n, each at its place. -/
def dense? (entries : List (Value × Value)) : Option (List Value) :=
  let n := entries.length
  if n ≠ 0 ∧ entries.all fun e => (position? n e.1).isSome then
    some (entries.foldl (fun items e => items.setIfInBounds ((position? n e.1).getD 0) e.2)
      (Array.replicate n Value.nil)).toList
  else none

/-- Numbers as keys and in messages: the shortest digits, never with an exponent. -/
def plainStyle : Decimal.Style where
  positional _ := true
  pointZero := false
  exponentDigits := 1

def plainText (x : Binary64) : String :=
  if x.isNaN then "NaN"
  else if x.isInfinite then (if x.isNegative then "-inf" else "inf")
  else plainStyle.write x.isNegative (Decimal.shortest x)

def keyText? : Value → Option String
  | .str s => some (Utf8.lossy s)
  | .number (.int i) => some (toString i.toInt)
  | .number (.float x) => some (plainText x)
  | .bool b => some (if b then "true" else "false")
  | _ => none

/-- The members of an object; of entries whose keys have the same text the last one counts. -/
def members (convert : Value → Except Fault Json) (entries : List (Value × Value)) :
    Except Fault (List (String × Json)) :=
  entries.foldlM (fun ms e =>
    match keyText? e.1 with
    | some k => do return Json.insert k (← convert e.2) ms
    | none => .ok ms) []

def Contents.toJson (convert : Value → Except Fault Json) : Contents → Except Fault Json
  | .array items => return .arr (← items.mapM convert)
  | .entries es =>
    match dense? es with
    | some items => return .arr (← items.mapM convert)
    | none => return .obj (← members convert es)

/-- Reads a value whose tables nest at most `levels` deep. What is no data becomes null. -/
def read (look : Nat → Contents) : (levels : Nat) → Value → Except Fault Json
  | _, .nil => .ok .null
  | _, .bool b => .ok (.bool b)
  | _, .number (.int i) => .ok (.int i.toInt)
  | _, .number (.float x) => .ok (.float x)
  | _, .str s => .ok (.str (Utf8.lossy s))
  | 0, .table _ => .error .tooDeep
  | levels + 1, .table place => (look place).toJson (read look levels)
  | _, .closure _ | _, .builtin _ | _, .host _ | _, .thread _ | _, .object _ | _, .null
  | _, .pointer _ => .ok .null

def toJson (h : Heap) (v : Value) : Except Fault Json := read (contents h) maxDepth v

end ScriptGate.Bridge
