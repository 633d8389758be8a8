import ScriptGate.Lua.Value

/-!
# Tables

A table keeps the values of the keys 1 to n in slots and all other entries as nodes, in order of
arrival. When a new key finds no room, the table is rebuilt: the slots reach up to the greatest
power of two of which more than half of the keys are in use. A removed entry keeps its node until
then. `length` is a border: a place with a value and none after it, or zero.
-/

namespace ScriptGate.Lua

/-- A table. Keys are what `Value.key?` gives. -/
structure Table where
  slots : Array Value := #[]
  nodes : Array (Value × Value) := #[]
  /-- How many nodes there is room for. -/
  room : Nat := 0
  metatable : Option Nat := none
  deriving Inhabited

namespace Table

def slot? (t : Table) : Value → Option Nat
  | .number (.int i) =>
    if 0 < i ∧ i.toInt ≤ t.slots.size then some (i.toInt.toNat - 1) else none
  | _ => none

def node? (t : Table) (key : Value) : Option Nat := t.nodes.findIdx? (·.1 == key)

def get (t : Table) (key : Value) : Value :=
  match t.slot? key with
  | some i => t.slots.getD i .nil
  | none =>
    match t.nodes.find? (·.1 == key) with
    | some (_, v) => v
    | none => .nil

/-- The value at a place of a list: that in its slot, else that of the integer key. No key is beyond
the integers of sixty-four bits. -/
def getNat (t : Table) (i : Nat) : Value :=
  if 0 < i ∧ i ≤ t.slots.size then t.slots.getD (i - 1) .nil
  else if i ≤ Word.greatest64 then t.get (.ofNat i)
  else .nil

/-- The entries in the order in which they are visited. -/
def entries (t : Table) : List (Value × Value) :=
  ((List.range t.slots.size).map fun i => (Value.ofNat (i + 1), t.slots.getD i .nil)) ++
    t.nodes.toList |>.filter fun e => !e.2.isNil

/-! ### Room -/

/-- The least power of two that is at least `n`; none are needed for no nodes. -/
def roomFor (n : Nat) : Nat :=
  if n = 0 then 0 else 1 <<< (if n = 1 then 0 else Nat.log2 (n - 1) + 1)

def positives (keys : List Value) : List Nat :=
  keys.filterMap fun
    | .number (.int i) => if 0 < i then some i.toInt.toNat else none
    | _ => none

/-- The greatest power of two, from `size` on, of which more than half of the keys are in use. -/
def slotCount (keys : List Nat) : (size fuel best : Nat) → Nat
  | _, 0, best => best
  | size, fuel + 1, best =>
    if keys.length ≤ size / 2 then best
    else
      let best := if size / 2 < (keys.filter (· ≤ size)).length then size else best
      slotCount keys (size * 2) fuel best

/-- Puts an entry into its slot, or behind the nodes. -/
def place (t : Table) (e : Value × Value) : Table :=
  match t.slot? e.1 with
  | some i => { t with slots := t.slots.setIfInBounds i e.2 }
  | none => { t with nodes := t.nodes.push e }

def resize (t : Table) (slots nodes : Nat) : Table :=
  let empty : Table :=
    { t with slots := .replicate slots .nil, nodes := #[], room := roomFor nodes }
  t.entries.foldl place empty

def rebuild (t : Table) (key : Value) : Table :=
  let keys := key :: t.entries.map Prod.fst
  let whole := positives keys
  let slots := slotCount whole 1 63 0
  t.resize slots (keys.length - (whole.filter (· ≤ slots)).length)

def set (t : Table) (key value : Value) : Table :=
  match t.slot? key with
  | some i => { t with slots := t.slots.setIfInBounds i value }
  | none =>
    match t.node? key with
    | some i => { t with nodes := t.nodes.setIfInBounds i (key, value) }
    | none =>
      if value.isNil then t
      else if t.nodes.size < t.room then { t with nodes := t.nodes.push (key, value) }
      else (t.rebuild key).place (key, value)

/-! ### Length -/

/-- A border between `low`, which has a value or is zero, and `high`, which has none. -/
def search (present : Nat → Bool) (low high : Nat) : Nat → Nat
  | 0 => low
  | fuel + 1 =>
    if high ≤ low + 1 then low
    else
      let middle := (low + high) / 2
      if present middle then search present middle high fuel
      else search present low middle fuel

/-- A border above `low`, which has a value, by doubling. -/
def searchBeyond (present : Nat → Bool) (low high : Nat) : Nat → Nat
  | 0 => low
  | fuel + 1 =>
    if present high then searchBeyond present high (high * 2) fuel
    else search present low high 64

/-- A border of the table. -/
def length (t : Table) : Nat :=
  let present i := !(t.getNat i).isNil
  let n := t.slots.size
  if 0 < n ∧ !present n then
    if 1 < n ∧ present (n - 1) then n - 1 else search present 0 n 64
  else if present (n + 1) then
    let low := if n = 0 then 1 else n
    searchBeyond present low (low * 2) 62
  else n

/-! ### Traversal -/

def entryFrom (t : Table) (i : Nat) : (fuel : Nat) → Option (Value × Value)
  | 0 => none
  | fuel + 1 =>
    let e := if i < t.slots.size then (Value.ofNat (i + 1), t.slots.getD i .nil)
      else t.nodes.getD (i - t.slots.size) (.nil, .nil)
    if e.2.isNil then t.entryFrom (i + 1) fuel else some e

/-- The entry after that of a key, the first one after nil; no answer where there is no such key. -/
def next (t : Table) (key : Value) : Option (Option (Value × Value)) :=
  let total := t.slots.size + t.nodes.size
  let from_ (i : Nat) := some (t.entryFrom i (total - i))
  match key with
  | .nil => from_ 0
  | key =>
    match t.slot? key with
    | some i => from_ (i + 1)
    | none =>
      match t.node? key with
      | some i => from_ (t.slots.size + i + 1)
      | none => none

/-! ### Construction -/

def ofList (values : List Value) : Table := { slots := values.toArray }

def ofEntries (entries : List (Value × Value)) : Table :=
  entries.foldl (fun t e => t.set e.1 e.2) { room := roomFor entries.length }

end Table

end ScriptGate.Lua
