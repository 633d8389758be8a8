import ScriptGate.Binary64
import ScriptGate.Word

/-!
# JSON values

A number is an integer that fits sixty-four bits (signed or unsigned) or a finite double. The
members of an object are kept in increasing order of their keys, each key once; `insert` keeps them
so, and `Ordered` says it of a whole value.
-/

namespace ScriptGate

namespace Json

/-- The integers that a JSON number keeps exactly. -/
def IsWord (i : Int) : Prop := Word.least64 ≤ i ∧ i ≤ Word.greatestUnsigned64

instance (i : Int) : Decidable (IsWord i) := inferInstanceAs (Decidable (_ ∧ _))

inductive Number where
  | int (value : Int) (isWord : IsWord value)
  | float (value : Binary64) (isFinite : value.isFinite = true)
  deriving DecidableEq, Repr

end Json

inductive Json where
  | null
  | bool (b : Bool)
  | num (n : Json.Number)
  | str (s : String)
  | arr (items : List Json)
  | obj (members : List (String × Json))
  deriving Repr, Inhabited

namespace Json

/-- The integer `i`, or zero where it needs more than sixty-four bits. -/
def int (i : Int) : Json := if h : IsWord i then .num (.int i h) else .num (.int 0 (by decide))

/-- The double `x`, or null where it is not finite. -/
def float (x : Binary64) : Json := if h : x.isFinite = true then .num (.float x h) else .null

mutual

def decEq : (a b : Json) → Decidable (a = b)
  | .null, .null => isTrue rfl
  | .bool a, .bool b => if h : a = b then isTrue (h ▸ rfl) else isFalse fun e => h (by cases e; rfl)
  | .num a, .num b => if h : a = b then isTrue (h ▸ rfl) else isFalse fun e => h (by cases e; rfl)
  | .str a, .str b => if h : a = b then isTrue (h ▸ rfl) else isFalse fun e => h (by cases e; rfl)
  | .arr a, .arr b =>
    match decEqItems a b with
    | isTrue h => isTrue (h ▸ rfl)
    | isFalse h => isFalse fun e => h (by cases e; rfl)
  | .obj a, .obj b =>
    match decEqMembers a b with
    | isTrue h => isTrue (h ▸ rfl)
    | isFalse h => isFalse fun e => h (by cases e; rfl)
  | .null, .bool _ | .null, .num _ | .null, .str _ | .null, .arr _ | .null, .obj _
  | .bool _, .null | .bool _, .num _ | .bool _, .str _ | .bool _, .arr _ | .bool _, .obj _
  | .num _, .null | .num _, .bool _ | .num _, .str _ | .num _, .arr _ | .num _, .obj _
  | .str _, .null | .str _, .bool _ | .str _, .num _ | .str _, .arr _ | .str _, .obj _
  | .arr _, .null | .arr _, .bool _ | .arr _, .num _ | .arr _, .str _ | .arr _, .obj _
  | .obj _, .null | .obj _, .bool _ | .obj _, .num _ | .obj _, .str _ | .obj _, .arr _ =>
    isFalse fun e => by cases e

def decEqItems : (a b : List Json) → Decidable (a = b)
  | [], [] => isTrue rfl
  | x :: a, y :: b =>
    match decEq x y with
    | isFalse h => isFalse fun e => h (by cases e; rfl)
    | isTrue h =>
      match decEqItems a b with
      | isTrue h' => isTrue (h ▸ h' ▸ rfl)
      | isFalse h' => isFalse fun e => h' (by cases e; rfl)
  | [], _ :: _ | _ :: _, [] => isFalse fun e => by cases e

def decEqMembers : (a b : List (String × Json)) → Decidable (a = b)
  | [], [] => isTrue rfl
  | (k, x) :: a, (l, y) :: b =>
    if hk : k = l then
      match decEq x y with
      | isFalse h => isFalse fun e => h (by cases e; rfl)
      | isTrue h =>
        match decEqMembers a b with
        | isTrue h' => isTrue (hk ▸ h ▸ h' ▸ rfl)
        | isFalse h' => isFalse fun e => h' (by cases e; rfl)
    else isFalse fun e => hk (by cases e; rfl)
  | [], _ :: _ | _ :: _, [] => isFalse fun e => by cases e

end

instance : DecidableEq Json := decEq

def isNull : Json → Bool
  | .null => true
  | _ => false

/-- Sets a member, keeping the keys in increasing order. -/
def insert (key : String) (value : Json) : List (String × Json) → List (String × Json)
  | [] => [(key, value)]
  | (k, v) :: rest =>
    if key < k then (key, value) :: (k, v) :: rest
    else if key = k then (key, value) :: rest
    else (k, v) :: insert key value rest

def find? (key : String) : List (String × Json) → Option Json
  | [] => none
  | (k, v) :: rest => if k = key then some v else find? key rest

/-- Members from a list of pairs, the last of equal keys winning. -/
def ofPairs (pairs : List (String × Json)) : List (String × Json) :=
  pairs.foldl (fun ms p => insert p.1 p.2 ms) []

mutual

def depth : Json → Nat
  | .arr items => depthItems items + 1
  | .obj members => depthMembers members + 1
  | _ => 0

def depthItems : List Json → Nat
  | [] => 0
  | x :: rest => max (depth x) (depthItems rest)

def depthMembers : List (String × Json) → Nat
  | [] => 0
  | (_, x) :: rest => max (depth x) (depthMembers rest)

end

mutual

/-- Every object inside has its keys in strictly increasing order. -/
def Ordered : Json → Prop
  | .arr items => OrderedItems items
  | .obj members => (members.map Prod.fst).Pairwise (· < ·) ∧ OrderedMembers members
  | _ => True

def OrderedItems : List Json → Prop
  | [] => True
  | x :: rest => Ordered x ∧ OrderedItems rest

def OrderedMembers : List (String × Json) → Prop
  | [] => True
  | (_, x) :: rest => Ordered x ∧ OrderedMembers rest

end

end Json

end ScriptGate
