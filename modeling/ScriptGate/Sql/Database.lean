import ScriptGate.Sql.Expression

/-!
# Databases

A database is a list of tables. The rows of a table are in order of their numbers. Each operation
takes a whole database to the next, or fails and leaves it as it is.
-/

namespace ScriptGate.Sql

inductive Fault where
  | syntax_
  | noTable (name : String)
  | tableExists (name : String)
  | noColumn
  | valueCount
  | parameterCount (needed given : Nat)
  | notNull (column : String)
  | notUnique
  | mismatch
  | inTransaction
  | noTransaction
  | readOnly
  | returnsRows
  deriving DecidableEq, Repr

def Fault.message : Fault → String
  | .syntax_ => "syntax error"
  | .noTable name => "no such table: " ++ name
  | .tableExists name => "table " ++ name ++ " already exists"
  | .noColumn => "no such column"
  | .valueCount => "wrong number of values"
  | .parameterCount needed given =>
    "wrong number of parameters: got " ++ toString given ++ ", needed " ++ toString needed
  | .notNull column => "NOT NULL constraint failed: " ++ column
  | .notUnique => "UNIQUE constraint failed"
  | .mismatch => "datatype mismatch"
  | .inTransaction => "cannot start a transaction within a transaction"
  | .noTransaction => "no transaction is active"
  | .readOnly => "attempt to write a readonly database"
  | .returnsRows => "the statement returns rows"

/-- A row: its number, and a value for each column. -/
structure Row where
  number : Int64
  values : List Value

structure Table where
  schema : Schema
  rows : List Row := []

structure Database where
  tables : List Table := []

namespace Table

/-- Whether two rows break a rule together: they have one number, or agree in columns that have to
differ, where neither is null. -/
def collide (s : Schema) (a b : Row) : Bool :=
  a.number == b.number || s.unique.any fun columns =>
    columns.all fun i =>
      let (x, y) := (a.values.getD i .null, b.values.getD i .null)
      !x.isNull && !y.isNull && x.same y

def place (r : Row) : List Row → List Row
  | [] => [r]
  | s :: rest => if r.number < s.number then r :: s :: rest else s :: place r rest

/-- Where free numbers are looked for when the greatest number is taken. -/
def middleNumber : Nat := 2305843009213693952

/-- The number of a new row: one more than the last, or a free one from the middle where the last is
the greatest. -/
def nextNumber (rows : List Row) : Int64 :=
  match rows.getLast? with
  | none => 1
  | some r =>
    if r.number = Int64.maxValue then
      let isFree (n : Nat) := rows.all fun r => r.number ≠ Int64.ofNat (middleNumber + n)
      Int64.ofNat (middleNumber + ((List.range (rows.length + 1)).find? isFree).getD 0)
    else r.number + 1

def number? (v : Value) : Except Fault Int64 :=
  match v.numeric.integral with
  | .int i => .ok i
  | _ => .error .mismatch

/-- The row of some values. Where the number of the row is a column, null there stands for the next
number if `fresh` is given. -/
def row (s : Schema) (fresh : Except Fault Int64) (own : Option Int64) (values : List Value) :
    Except Fault Row := do
  let stored := (s.columns.zip values).map fun (c, v) => v.stored c.affinity
  match s.rowColumn with
  | none => return ⟨← own.elim fresh .ok, stored⟩
  | some i =>
    let n ← match values.getD i .null, own with
      | .null, none => fresh
      | v, _ => number? v
    return ⟨n, stored.set i (.int n)⟩

def missing? (s : Schema) (r : Row) : Option Column :=
  ((s.columns.zip r.values).find? fun (c, v) => c.notNull && v.isNull).map Prod.fst

/-- Adds a row; the number of rows that are new comes with the table. -/
def add (t : Table) (onConflict : OnConflict) (values : List Value) :
    Except Fault (Table × Nat) := do
  let r ← row t.schema (.ok (nextNumber t.rows)) none values
  match missing? t.schema r with
  | some c => if onConflict = .ignore then return (t, 0) else .error (.notNull c.name)
  | none =>
    let free := t.rows.filter fun other => !collide t.schema r other
    if free.length = t.rows.length then return ({ t with rows := place r t.rows }, 1)
    else
      match onConflict with
      | .abort => .error .notUnique
      | .ignore => return (t, 0)
      | .replace => return ({ t with rows := place r free }, 1)

def change (t : Table) (old : Row) (values : List Value) : Except Fault Table := do
  let r ← row t.schema (.error .mismatch) (some old.number) values
  match missing? t.schema r with
  | some c => .error (.notNull c.name)
  | none =>
    let others := t.rows.filter fun other => other.number != old.number
    if others.any (collide t.schema r) then .error .notUnique
    else return { t with rows := place r others }

end Table

namespace Database

def find? (d : Database) (name : String) : Option Table :=
  d.tables.find? fun t => Expr.fold t.schema.name = Expr.fold name

def table (d : Database) (name : String) : Except Fault Table :=
  match d.find? name with
  | some t => .ok t
  | none => .error (.noTable name)

def replace (d : Database) (t : Table) : Database :=
  ⟨d.tables.map fun other => if other.schema.name = t.schema.name then t else other⟩

def create (d : Database) (ifAbsent : Bool) (s : Schema) : Except Fault Database :=
  match d.find? s.name with
  | some _ => if ifAbsent then .ok d else .error (.tableExists s.name)
  | none => .ok ⟨d.tables ++ [{ schema := s }]⟩

def drop (d : Database) (ifPresent : Bool) (name : String) : Except Fault Database :=
  match d.find? name with
  | some t => .ok ⟨d.tables.filter fun other => other.schema.name != t.schema.name⟩
  | none => if ifPresent then .ok d else .error (.noTable name)

end Database

end ScriptGate.Sql
