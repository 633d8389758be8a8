import ScriptGate.Sql.Value

/-!
# Statements

The statements of the database and the expressions in them. References to columns are names at first
and places once they have been looked up.
-/

namespace ScriptGate.Sql

inductive Unary where
  | minus
  | not
  | isNull
  | notNull
  deriving DecidableEq

inductive Binary where
  | or | and
  | eq | ne | lt | le | gt | ge
  | add | sub | mul | div | mod
  | concat
  deriving DecidableEq

inductive Expr (ρ : Type) where
  | literal (v : Value)
  | parameter (number : Nat)
  | column (c : ρ)
  | unary (op : Unary) (e : Expr ρ)
  | binary (op : Binary) (left right : Expr ρ)
  /-- How many rows there are. -/
  | count

/-- A reference to a column by name. A name in double quotes stands for a text where there is no
such column. -/
structure Name where
  table : Option String := none
  name : String
  textual : Bool := false

structure Column where
  name : String
  affinity : Affinity := .blob
  notNull : Bool := false
  default : Value := .null

structure Schema where
  name : String
  columns : List Column
  /-- The column that is the number of the row. -/
  rowColumn : Option Nat := none
  /-- The columns in which no two rows agree, null aside. -/
  unique : List (List Nat) := []

inductive OnConflict where
  | abort
  | ignore
  | replace
  deriving DecidableEq

inductive Item where
  | all
  | value (e : Expr Name) (name : Option String) (source : String)

inductive Statement where
  | createTable (ifAbsent : Bool) (schema : Schema)
  | dropTable (ifPresent : Bool) (name : String)
  | insert (onConflict : OnConflict) (table : String) (columns : Option (List String))
      (rows : List (List (Expr Name)))
  | update (table : String) (assignments : List (String × Expr Name))
    (condition : Option (Expr Name))
  | delete (table : String) (condition : Option (Expr Name))
  | select (items : List Item) (table : Option String) (condition : Option (Expr Name))
      (order : List (Expr Name × Bool)) (limit : Option (Expr Name))
  | begin
  | commit
  | rollback
  | journalMode

end ScriptGate.Sql
