import ScriptGate.Sql.Syntax
import ScriptGate.Word

/-!
# Values of expressions

A name is looked up once, in the columns of a table; then an expression has a value for every row.
Truth has three values: whether null is less than one is not known, which is null again.
-/

namespace ScriptGate.Sql

/-- A column that has been found: its place, and its affinity. -/
structure Reference where
  place : Nat
  affinity : Affinity

/-- The table whose columns an expression may name, and whether it may count the rows. -/
structure Scope where
  table : Option Schema := none
  counting : Bool := false

/-- What an expression is evaluated for: the parameters, the values of the row, how many rows there
are. -/
structure Situation where
  parameters : List Value
  row : List Value := []
  rows : Nat := 0

namespace Expr

def fold (s : String) : String := s.map Char.toLower

def find? (scope : Scope) (n : Name) : Option Reference := do
  let t ← scope.table
  if (n.table.map fun q => fold q != fold t.name).getD false then none
  else
    let i ← t.columns.findIdx? fun c => fold c.name = fold n.name
    let c ← t.columns[i]?
    return ⟨i, c.affinity⟩

def lookUp (scope : Scope) : Expr Name → Option (Expr Reference)
  | .literal v => some (.literal v)
  | .parameter n => some (.parameter n)
  | .column n =>
    match find? scope n with
    | some r => some (.column r)
    | none => if n.textual then some (.literal (.text n.name)) else none
  | .unary op e => (lookUp scope e).map (.unary op)
  | .binary op l r => (lookUp scope l).bind fun l => (lookUp scope r).map fun r => .binary op l r
  | .count => if scope.counting then some .count else none

def counts {ρ : Type} : Expr ρ → Bool
  | .unary _ e => counts e
  | .binary _ l r => counts l || counts r
  | .count => true
  | .literal _ | .parameter _ | .column _ => false

/-- The affinity of an operand: only columns have one. -/
def affinity? : Expr Reference → Option Affinity
  | .column r => some r.affinity
  | _ => none

/-! ### Operators -/

/-- How two operands are brought together before they are compared. -/
def comparisonAffinity : Option Affinity → Option Affinity → Affinity
  | some a, some b => if a.isNumeric || b.isNumeric then .numeric else .blob
  | some a, none | none, some a => a
  | none, none => .blob

def compared (a : Affinity) (v : Value) : Value :=
  match a with
  | .blob => v
  | .text => v.textual
  | .numeric | .integer | .real => v.numeric

/-- Compares two values that are not null. -/
def compare (op : Binary) (a b : Value) : Bool :=
  match op with
  | .eq => a.same b
  | .ne => !a.same b
  | .lt => a.before b
  | .le => !b.before a
  | .gt => b.before a
  | _ => !a.before b

/-- An integer that fits, or the double beside it. -/
def ofInt (i : Int) (x : Binary64) : Value :=
  if Word.IsSigned64 i then .int (Int64.ofInt i) else .ofReal x

def arithmetic (op : Binary) (a b : Value) : Value :=
  let (x, y) := (a.toReal, b.toReal)
  match op, a, b with
  | .add, .int i, .int j => ofInt (i.toInt + j.toInt) (x.add y)
  | .sub, .int i, .int j => ofInt (i.toInt - j.toInt) (x.sub y)
  | .mul, .int i, .int j => ofInt (i.toInt * j.toInt) (x.mul y)
  | .div, .int i, .int j => if j = 0 then .null else ofInt (i.toInt.tdiv j.toInt) (x.div y)
  | .add, _, _ => .ofReal (x.add y)
  | .sub, _, _ => .ofReal (x.sub y)
  | .mul, _, _ => .ofReal (x.mul y)
  | .div, _, _ => if y.isZero then .null else .ofReal (x.div y)
  | _, _, _ =>
    let (i, j) := (a.truncated, b.truncated)
    if j = 0 then .null
    else
      match a, b with
      | .int _, .int _ => .int (Int64.ofInt (i.tmod j))
      | _, _ => .real (Binary64.ofInt (i.tmod j))

def ofTruth : Option Bool → Value
  | some b => .ofBool b
  | none => .null

def both : Option Bool → Option Bool → Option Bool
  | some false, _ | _, some false => some false
  | some true, some true => some true
  | _, _ => none

def either : Option Bool → Option Bool → Option Bool
  | some true, _ | _, some true => some true
  | some false, some false => some false
  | _, _ => none

def unaryValue (op : Unary) (v : Value) : Value :=
  match op with
  | .isNull => .ofBool v.isNull
  | .notNull => .ofBool (!v.isNull)
  | .not => ofTruth (v.truth?.map not)
  | .minus =>
    match v.number? with
    | none => .null
    | some v => arithmetic .sub (.int 0) v

/-- The value of an operator; `a` is how comparisons bring the operands together. -/
def binaryValue (op : Binary) (a : Affinity) (l r : Value) : Value :=
  match op with
  | .and => ofTruth (both l.truth? r.truth?)
  | .or => ofTruth (either l.truth? r.truth?)
  | .eq | .ne | .lt | .le | .gt | .ge =>
    if l.isNull || r.isNull then .null else .ofBool (compare op (compared a l) (compared a r))
  | .concat => if l.isNull || r.isNull then .null else .text (l.toText ++ r.toText)
  | .add | .sub | .mul | .div | .mod =>
    match l.number?, r.number? with
    | some x, some y => arithmetic op x y
    | _, _ => .null

def eval (s : Situation) : Expr Reference → Value
  | .literal v => v
  | .parameter n => s.parameters.getD (n - 1) .null
  | .column r => s.row.getD r.place .null
  | .unary op e => unaryValue op (eval s e)
  | .binary op l r =>
    binaryValue op (comparisonAffinity l.affinity? r.affinity?) (eval s l) (eval s r)
  | .count => .int (Int64.ofNat s.rows)

/-- Whether a condition holds; none holds always. -/
def holds (s : Situation) (condition : Option (Expr Reference)) : Bool :=
  match condition with
  | some e => (eval s e).truth? == some true
  | none => true

end Expr

end ScriptGate.Sql
