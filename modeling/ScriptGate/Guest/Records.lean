import ScriptGate.Guest.Argument
import ScriptGate.Sql.Connection

/-!
# Databases in scripts

Parameters of statements come as a list, and the rows of a query go back as a list of tables by the
names of the columns. Null is the null of the outside in both directions.
-/

namespace ScriptGate.Guest.Records

open Lua (Value Heap Table)

/-- A value as a parameter; the kind of one that cannot be. -/
def parameter (v : Value) : Except String Sql.Value :=
  match v with
  | .nil | .null => .ok .null
  | .bool b => .ok (.ofBool b)
  | .number (.int i) => .ok (.int i)
  | .number (.float x) => .ok (.ofReal x)
  | .str s =>
    match s.toString? with
    | some t => .ok (.text t)
    | none => .ok (.blob s)
  | v => .error (kindName v)

def parameters (h : Heap) (list : Option Nat) : Except String (List Sql.Value) :=
  match list with
  | none => .ok []
  | some place =>
    let t := h.table place
    let values := (List.range t.length).map fun i => t.getNat (i + 1)
    (values.mapM parameter).mapError ("unsupported parameter type: " ++ ·)

def ofSql : Sql.Value → Value
  | .null => .null
  | .int i => .int i
  | .real x => .float x
  | .text s => .text s
  | .blob b => .str b

def toTable (rows : List Sql.Record) (h : Heap) : Value × Heap :=
  let (tables, h) := rows.foldl (fun (tables, h) row =>
    let (v, h) := Heap.newTable h (.ofEntries (row.map fun (c, v) => (.text c, ofSql v)))
    (v :: tables, h)) (([] : List Value), h)
  h.newTable { Table.ofList tables.reverse with metatable := some h.arrayMetatable }

end ScriptGate.Guest.Records
