import ScriptGate.Sql.Database
import ScriptGate.Sql.Parser

/-!
# Connections

A connection that writes keeps the number of rows of its last change and, between `BEGIN` and
`COMMIT` or `ROLLBACK`, a database of its own, which others see when it is committed. A connection
that only reads sees what is committed and refuses to change it.
-/

namespace ScriptGate.Sql

/-- A row of a result: the names of its columns, and their values. -/
abbrev Record := List (String × Value)

structure Connection where
  /-- The database inside a transaction. -/
  own : Option Database := none
  /-- How many rows the last statement has changed that changes rows. -/
  changes : Nat := 0

namespace Statement

open ScriptGate.Sql.Expr (lookUp)

def condition (scope : Scope) : Option (Expr Name) → Except Fault (Option (Expr Reference))
  | none => .ok none
  | some e =>
    match lookUp scope e with
    | some e => .ok (some e)
    | none => .error .noColumn

def expression (scope : Scope) (e : Expr Name) : Except Fault (Expr Reference) :=
  match lookUp scope e with
  | some e => .ok e
  | none => .error .noColumn

/-! ### Changes -/

def targets (s : Schema) : Option (List String) → Except Fault (List Nat)
  | none => .ok (List.range s.columns.length)
  | some names => names.mapM fun n =>
    match Expr.find? { table := some s } { name := n } with
    | some r => .ok r.place
    | none => .error .noColumn

/-- A value for each column: the default where none is given. -/
def spread (s : Schema) (places : List Nat) (values : List Value) : List Value :=
  s.columns.zipIdx.map fun (c, i) =>
    match (places.zip values).find? (·.1 == i) with
    | some (_, v) => v
    | none => c.default

/-- Adds rows, all or none of them. -/
def insertRows (t : Table) (onConflict : OnConflict) :
    List (List Value) → Except Fault (Table × Nat)
  | [] => .ok (t, 0)
  | values :: rest => do
    let (t, n) ← t.add onConflict values
    let (t, m) ← insertRows t onConflict rest
    return (t, n + m)

/-- Changes rows, all or none of them. -/
def updateRows (t : Table) (change : List Value → List Value) : List Row → Except Fault Table
  | [] => .ok t
  | r :: rest => do updateRows (← t.change r (change r.values)) change rest

/-- What a statement that changes rows makes of a database, and how many rows it changes. The first
layer of the answer is for faults that are found before anything is done. -/
def changeRows (d : Database) (parameters : List Value) :
    Statement → Option (Except Fault (Except Fault (Database × Nat)))
  | .insert onConflict name columns rows => some do
    let t ← d.table name
    let places ← targets t.schema columns
    let rows ← rows.mapM fun es => do
      let es ← es.mapM (expression {})
      if es.length = places.length then return es else .error .valueCount
    return do
      let values := rows.map fun es => spread t.schema places (es.map (Expr.eval { parameters }))
      let (t, n) ← insertRows t onConflict values
      return (d.replace t, n)
  | .update name assignments whether => some do
    let t ← d.table name
    let scope : Scope := { table := some t.schema }
    let assignments ← assignments.mapM fun (n, e) => do
      match Expr.find? scope { name := n } with
      | some r => return (r.place, ← expression scope e)
      | none => .error .noColumn
    let whether ← condition scope whether
    return do
      let rows := t.rows.filter fun r => Expr.holds { parameters, row := r.values } whether
      let change (values : List Value) : List Value :=
        assignments.foldl (fun vs (i, e) => vs.set i (e.eval { parameters, row := values })) values
      let t ← updateRows t change rows
      return (d.replace t, rows.length)
  | .delete name whether => some do
    let t ← d.table name
    let whether ← condition { table := some t.schema } whether
    return do
      let kept := t.rows.filter fun r => !Expr.holds { parameters, row := r.values } whether
      return (d.replace { t with rows := kept }, t.rows.length - kept.length)
  | _ => none

/-! ### Selections -/

def columnsOf (scope : Scope) : List Item → Except Fault (List (String × Expr Reference))
  | [] => .ok []
  | .all :: rest => do
    match scope.table with
    | none => .error .syntax_
    | some s =>
      let own := s.columns.zipIdx.map fun (c, i) => (c.name, Expr.column ⟨i, c.affinity⟩)
      return own ++ (← columnsOf scope rest)
  | .value e name source :: rest => do
    let e ← expression scope e
    let name := match name, e with
      | some n, _ => n
      | none, .column r => ((scope.table.bind (·.columns[r.place]?)).map (·.name)).getD source
      | none, _ => source
    return (name, e) :: (← columnsOf scope rest)

/-- What a key of an order is: a column of the result by its place or its name, or an expression. -/
def keyOf (scope : Scope) (columns : List (String × Expr Reference)) (e : Expr Name) :
    Except Fault (Expr Reference) :=
  match e with
  | .literal (.int i) =>
    match if 1 ≤ i.toInt then columns[i.toInt.toNat - 1]? else none with
    | some c => .ok c.2
    | none => .error .noColumn
  | .column n =>
    match columns.find? fun c => n.table.isNone && Expr.fold c.1 == Expr.fold n.name with
    | some c => .ok c.2
    | none => expression scope e
  | e => expression scope e

/-- Whether the first of two lists of keys does not come after the other. -/
def ordered : List (Value × Bool) → List (Value × Bool) → Bool
  | (a, reversed) :: as, (b, _) :: bs =>
    if a.before b then !reversed else if b.before a then reversed else ordered as bs
  | _, _ => true

def rowsOf (d : Database) (parameters : List Value) (items : List Item) (name : Option String)
    (whether : Option (Expr Name)) (order : List (Expr Name × Bool)) (limit : Option (Expr Name)) :
    Except Fault (List Record) := do
  let t ← match name with
    | some n => (d.table n).map some
    | none => .ok none
  let scope : Scope := { table := t.map (·.schema) }
  let columns ← columnsOf { scope with counting := true } items
  let whether ← condition scope whether
  let keys ← order.mapM fun (e, reversed) => return (← keyOf scope columns e, reversed)
  let limit ← condition {} limit
  let all := (t.map (·.rows)).getD [⟨0, []⟩]
  let rows := all.filter fun r => Expr.holds { parameters, row := r.values } whether
  let counting := columns.any (·.2.counts)
  let shown (n : Nat) (row : List Value) : Record :=
    columns.map fun (c, e) => (c, e.eval { parameters, row, rows := n })
  let records :=
    if counting then [shown rows.length ((rows.getLast?.map (·.values)).getD [])]
    else
      let keyed := rows.map fun r =>
        (keys.map fun (e, reversed) => (e.eval { parameters, row := r.values }, reversed), r)
      (keyed.mergeSort fun a b => ordered a.1 b.1).map fun k => shown 0 k.2.values
  match limit.map (Expr.eval { parameters }) with
  | none => return records
  | some v =>
    match v.numeric.integral with
    | .int i => return if i < 0 then records else records.take i.toInt.toNat
    | _ => .error .mismatch

/-- The rows that a statement gives which does not change the database; nothing for one that does.
-/
def rows? (d : Database) (parameters : List Value) : Statement → Option (Except Fault (List Record))
  | .select items table whether order limit =>
    some (rowsOf d parameters items table whether order limit)
  | .journalMode => some (.ok [[("journal_mode", .text "wal")]])
  | _ => none

end Statement

def prepare (sql : String) (parameters : List Value) : Except Fault Statement :=
  match Prepared.ofText? sql with
  | none => .error .syntax_
  | some p =>
    if p.parameters = parameters.length then .ok p.statement
    else .error (.parameterCount p.parameters parameters.length)

/-- The outcome of a statement: the committed database, the connection, and the number of rows of
the last change, or a fault. -/
structure Outcome where
  committed : Database
  connection : Connection
  answer : Except Fault Nat

namespace Connection

def current (c : Connection) (committed : Database) : Database := c.own.getD committed

def define (d : Database) : Statement → Option (Except Fault Database)
  | .createTable ifAbsent s => some (d.create ifAbsent s)
  | .dropTable ifPresent name => some (d.drop ifPresent name)
  | _ => none

def keep (c : Connection) (committed d : Database) : Outcome :=
  match c.own with
  | some _ => ⟨committed, { c with own := some d }, .ok c.changes⟩
  | none => ⟨d, c, .ok c.changes⟩

def run (c : Connection) (committed : Database) (parameters : List Value) (s : Statement) :
    Outcome :=
  let unchanged (a : Except Fault Nat) : Outcome := ⟨committed, c, a⟩
  let d := c.current committed
  match s with
  | .begin =>
    match c.own with
    | some _ => unchanged (.error .inTransaction)
    | none => ⟨committed, { c with own := some committed }, .ok c.changes⟩
  | .commit =>
    match c.own with
    | some d => ⟨d, { c with own := none }, .ok c.changes⟩
    | none => unchanged (.error .noTransaction)
  | .rollback =>
    match c.own with
    | some _ => ⟨committed, { c with own := none }, .ok c.changes⟩
    | none => unchanged (.error .noTransaction)
  | s =>
    match s.rows? d parameters with
    | some (.error f) => unchanged (.error f)
    | some (.ok rows) => unchanged (if rows.isEmpty then .ok c.changes else .error .returnsRows)
    | none =>
      match s.changeRows d parameters with
      | some (.error f) => unchanged (.error f)
      | some (.ok (.error f)) => ⟨committed, { c with changes := 0 }, .error f⟩
      | some (.ok (.ok (d, n))) => { c with changes := n }.keep committed d
      | none =>
        match define d s with
        | some (.error f) => unchanged (.error f)
        | some (.ok d) => c.keep committed d
        | none => unchanged (.error .syntax_)

/-- Runs the first statement of a text. -/
def execute (c : Connection) (committed : Database) (sql : String) (parameters : List Value) :
    Outcome :=
  match prepare sql parameters with
  | .error f => ⟨committed, c, .error f⟩
  | .ok s => c.run committed parameters s

end Connection

/-- The rows of the first statement of a text on a connection that only reads. -/
def query (committed : Database) (sql : String) (parameters : List Value) :
    Except Fault (List Record) := do
  let s ← prepare sql parameters
  match s.rows? committed parameters with
  | some answer => answer
  | none =>
    match s with
    | .begin => return []
    | .commit | .rollback => .error .noTransaction
    | .createTable true schema =>
      if (committed.find? schema.name).isSome then return [] else .error .readOnly
    | .dropTable true name =>
      if (committed.find? name).isNone then return [] else .error .readOnly
    | s =>
      match s.changeRows committed parameters with
      | some (.error f) => .error f
      | _ => .error .readOnly

end ScriptGate.Sql
