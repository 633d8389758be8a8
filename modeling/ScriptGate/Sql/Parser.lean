import ScriptGate.Sql.Syntax
import ScriptGate.Sql.Token
import ScriptGate.Word

/-!
# Reading statements

A statement is read from its tokens by one function for each construct; what is left of the tokens
is given back. A statement that leaves any is none.
-/

namespace ScriptGate.Sql

namespace Parser

abbrev Tokens := List Token

def upper (s : String) : String := s.map Char.toUpper

def reserved : List String := [
  "ADD", "ALL", "ALTER", "AND", "AS", "AUTOINCREMENT", "BETWEEN", "CASE", "CHECK", "COLLATE",
  "COMMIT", "CONSTRAINT", "CREATE", "DEFAULT", "DEFERRABLE", "DELETE", "DISTINCT", "DROP", "ELSE",
  "ESCAPE", "EXISTS", "FOREIGN", "FROM", "GROUP", "HAVING", "IN", "INDEX", "INSERT", "INTO", "IS",
  "ISNULL", "JOIN", "LIMIT", "NOT", "NOTHING", "NOTNULL", "NULL", "ON", "OR", "ORDER", "PRIMARY",
  "REFERENCES", "RETURNING", "SELECT", "SET", "TABLE", "THEN", "TO", "TRANSACTION", "UNION",
  "UNIQUE",
  "UPDATE", "USING", "VALUES", "WHEN", "WHERE"]

def word? (w : String) : Tokens → Option Tokens
  | ⟨.word s, _, _⟩ :: rest => if upper s = w then some rest else none
  | _ => none

def words? : List String → Tokens → Option Tokens
  | [], ts => some ts
  | w :: ws, ts => (word? w ts).bind (words? ws)

def symbol? (s : String) : Tokens → Option Tokens
  | ⟨.symbol t, _, _⟩ :: rest => if t = s then some rest else none
  | _ => none

def flag (ws : List String) (ts : Tokens) : Bool × Tokens :=
  match words? ws ts with
  | some rest => (true, rest)
  | none => (false, ts)

def name? : Tokens → Option (String × Tokens)
  | ⟨.word s, _, _⟩ :: rest => if reserved.contains (upper s) then none else some (s, rest)
  | ⟨.quoted s _, _, _⟩ :: rest => some (s, rest)
  | _ => none

def sequence {α : Type} (one : Tokens → Option (α × Tokens)) :
    (fuel : Nat) → Tokens → Option (List α × Tokens)
  | 0, _ => none
  | fuel + 1, ts => do
    let (a, ts) ← one ts
    match symbol? "," ts with
    | some rest => do
      let (others, ts) ← sequence one fuel rest
      return (a :: others, ts)
    | none => return ([a], ts)

def parenthesized {α : Type} (one : Tokens → Option (α × Tokens)) (ts : Tokens) :
    Option (α × Tokens) := do
  let (a, ts) ← one (← symbol? "(" ts)
  return (a, ← symbol? ")" ts)

def names (ts : Tokens) : Option (List String × Tokens) :=
  parenthesized (sequence name? ts.length) ts

/-! ### Expressions -/

/-- The operators of a level, the loosest first. -/
def operators : Nat → List (String × Binary)
  | 0 => [("OR", .or)]
  | 1 => [("AND", .and)]
  | 3 => [("=", .eq), ("<>", .ne)]
  | 4 => [("<", .lt), ("<=", .le), (">", .gt), (">=", .ge)]
  | 5 => [("+", .add), ("-", .sub)]
  | 6 => [("*", .mul), ("/", .div), ("%", .mod)]
  | 7 => [("||", .concat)]
  | _ => []

/-- The level of a prefixed `NOT`, and that of operands. -/
def notLevel : Nat := 2
def operandLevel : Nat := 8

def operator? (level : Nat) : Tokens → Option (Binary × Tokens)
  | ⟨.word s, _, _⟩ :: rest => ((operators level).lookup (upper s)).map (·, rest)
  | ⟨.symbol s, _, _⟩ :: rest => ((operators level).lookup s).map (·, rest)
  | _ => none

def nullTest? (level : Nat) (ts : Tokens) : Option (Unary × Tokens) :=
  if level = 3 then
    ((words? ["IS", "NOT", "NULL"] ts).orElse fun _ =>
      (words? ["NOTNULL"] ts).orElse fun _ => words? ["NOT", "NULL"] ts).map (Unary.notNull, ·)
      |>.orElse fun _ =>
    ((words? ["IS", "NULL"] ts).orElse fun _ => words? ["ISNULL"] ts).map (Unary.isNull, ·)
  else none

def reference? (ts : Tokens) : Option (Expr Name × Tokens) := do
  let textual := match ts with
    | ⟨.quoted _ double, _, _⟩ :: _ => double
    | _ => false
  let (first, rest) ← name? ts
  match symbol? "." rest with
  | some rest => do
    let (second, rest) ← name? rest
    return (.column { table := some first, name := second }, rest)
  | none => return (.column { name := first, textual }, rest)

/-- Whether a token is the integer one above the greatest, which is a double by itself and the least
integer behind a minus. -/
def isLeastMagnitude (t : Token) : Bool :=
  t.lexeme == .literal (.real (Binary64.ofInt (-Word.least64))) && t.stop - t.start == 19

def negative? : Tokens → Option (Value × Tokens)
  | ⟨.symbol "-", _, _⟩ :: t :: rest =>
    if isLeastMagnitude t then some (.int Int64.minValue, rest)
    else
      match t.lexeme with
      | .literal (.int i) => some (.int (-i), rest)
      | .literal (.real x) => some (.real x.neg, rest)
      | _ => none
  | _ => none

mutual

/-- An expression whose operators are of a level or of tighter ones. -/
def expr : (fuel level : Nat) → Tokens → Option (Expr Name × Tokens)
  | 0, _, _ => none
  | fuel + 1, level, ts =>
    if operandLevel ≤ level then operand fuel ts
    else
      match if level = notLevel then word? "NOT" ts else none with
      | some rest => (expr fuel level rest).map fun (e, r) => (.unary .not e, r)
      | none => (expr fuel (level + 1) ts).bind fun (l, r) => operations fuel level l r

def operations : (fuel level : Nat) → Expr Name → Tokens → Option (Expr Name × Tokens)
  | 0, _, _, _ => none
  | fuel + 1, level, left, ts =>
    match nullTest? level ts with
    | some (op, rest) => operations fuel level (.unary op left) rest
    | none =>
      match operator? level ts with
      | some (op, rest) =>
        (expr fuel (level + 1) rest).bind fun (right, rest) =>
          operations fuel level (.binary op left right) rest
      | none => some (left, ts)

def operand : (fuel : Nat) → Tokens → Option (Expr Name × Tokens)
  | 0, _ => none
  | fuel + 1, ts =>
    match ts with
    | ⟨.literal v, _, _⟩ :: rest => some (.literal v, rest)
    | ⟨.parameter (some n) _, _, _⟩ :: rest => some (.parameter n, rest)
    | ⟨.symbol "-", _, _⟩ :: rest =>
      match negative? ts with
      | some (v, rest) => some (.literal v, rest)
      | none => (operand fuel rest).map fun (e, r) => (.unary .minus e, r)
    | ⟨.symbol "+", _, _⟩ :: rest => operand fuel rest
    | ⟨.symbol "(", _, _⟩ :: rest =>
      (expr fuel 0 rest).bind fun (e, r) => (symbol? ")" r).map (e, ·)
    | ⟨.word s, _, _⟩ :: ⟨.symbol "(", _, _⟩ :: ⟨.symbol "*", _, _⟩ :: ⟨.symbol ")", _, _⟩ ::
        rest =>
      if upper s = "COUNT" then some (.count, rest) else none
    | ⟨.word s, _, _⟩ :: rest =>
      if (symbol? "(" rest).isSome then none
      else if upper s = "NULL" then some (.literal .null, rest)
      else if upper s = "TRUE" then some (.literal (.int 1), rest)
      else if upper s = "FALSE" then some (.literal (.int 0), rest)
      else reference? ts
    | _ => reference? ts

end

def expression (ts : Tokens) : Option (Expr Name × Tokens) := expr (12 * ts.length + 12) 0 ts

def clause (w : String) (ts : Tokens) : Option (Option (Expr Name) × Tokens) :=
  match word? w ts with
  | some rest => (expression rest).map fun (e, r) => (some e, r)
  | none => some (none, ts)

/-! ### Tables -/

def occursIn (part s : String) : Bool :=
  let rec go : List Char → Bool
    | [] => part.isEmpty
    | c :: r => part.toList.isPrefixOf (c :: r) || go r
  go s.toList

def affinityOf (type : String) : Affinity :=
  let t := upper type
  let has (part : String) := occursIn part t
  if has "INT" then .integer
  else if has "CHAR" || has "CLOB" || has "TEXT" then .text
  else if t = "" || has "BLOB" then .blob
  else if has "REAL" || has "FLOA" || has "DOUB" then .real
  else .numeric

structure Declaration where
  column : Column
  type : String := ""
  unique : Bool := false
  primary : Bool := false

def typeWords : Tokens → List String × Tokens
  | [] => ([], [])
  | t :: rest =>
    match name? (t :: rest) with
    | some (w, _) =>
      let (ws, r) := typeWords rest
      (w :: ws, r)
    | none => ([], t :: rest)

def afterSizes (ts : Tokens) : Tokens :=
  match symbol? "(" ts with
  | some rest => (rest.dropWhile fun t => t.lexeme != .symbol ")").drop 1
  | none => ts

def signedLiteral (ts : Tokens) : Option (Value × Tokens) :=
  (negative? ts).orElse fun _ =>
    match ts with
    | ⟨.literal v, _, _⟩ :: rest => some (v, rest)
    | ts => (word? "NULL" ts).map (Value.null, ·)

def rules : (fuel : Nat) → Declaration → Tokens → Option (Declaration × Tokens)
  | 0, _, _ => none
  | fuel + 1, d, ts =>
    match words? ["PRIMARY", "KEY"] ts with
    | some rest =>
      let rest := (flag ["ASC"] rest).2
      let rest := (flag ["AUTOINCREMENT"] rest).2
      rules fuel { d with primary := true } rest
    | none =>
      match words? ["NOT", "NULL"] ts with
      | some rest => rules fuel { d with column.notNull := true } rest
      | none =>
        match word? "UNIQUE" ts with
        | some rest => rules fuel { d with unique := true } rest
        | none =>
          match word? "NULL" ts with
          | some rest => rules fuel d rest
          | none =>
            match word? "DEFAULT" ts with
            | some rest =>
              (signedLiteral rest).bind fun (v, rest) =>
                rules fuel { d with column.default := v } rest
            | none => some (d, ts)

def declaration (ts : Tokens) : Option (Declaration × Tokens) := do
  let (name, rest) ← name? ts
  let (ws, rest) := typeWords rest
  let type := " ".intercalate ws
  rules (rest.length + 1) { column := { name, affinity := affinityOf type }, type }
    (afterSizes rest)

/-- A rule about several columns: whether it is about the key, and which. -/
def tableRule (ts : Tokens) : Option ((Bool × List String) × Tokens) :=
  match words? ["PRIMARY", "KEY"] ts with
  | some rest => (names rest).map fun (ns, r) => ((true, ns), r)
  | none => (word? "UNIQUE" ts).bind fun rest => (names rest).map fun (ns, r) => ((false, ns), r)

def part (ts : Tokens) : Option ((Declaration ⊕ Bool × List String) × Tokens) :=
  match tableRule ts with
  | some (r, rest) => some (.inr r, rest)
  | none => (declaration ts).map fun (d, rest) => (.inl d, rest)

/-- The place of a name among columns, the case of ASCII letters aside. -/
def place? (columns : List Column) (name : String) : Option Nat :=
  columns.findIdx? fun c => upper c.name = upper name

/-- The table of some parts; nothing where a name occurs twice or not at all, or there are two keys.
-/
def schema (name : String) (parts : List (Declaration ⊕ Bool × List String)) : Option Schema := do
  let ds := parts.filterMap fun | .inl d => some d | .inr _ => none
  let columns := ds.map (·.column)
  let own := (ds.zipIdx.filter (·.1.primary)).map fun d => [d.2]
  let shared ← parts.filterMapM fun
    | .inr (primary, ns) => return some (primary, ← ns.mapM (place? columns))
    | .inl _ => some none
  let keys := own ++ (shared.filter (·.1)).map (·.2)
  if columns.isEmpty || 1 < keys.length || !(columns.map fun c => upper c.name).Nodup then none
  else
    let isRow (i : Nat) : Bool := (ds[i]?.map fun d => upper d.type == "INTEGER").getD false
    let rowColumn := match keys with
      | [[i]] => if isRow i then some i else none
      | _ => none
    let unique := (ds.zipIdx.filter (·.1.unique)).map (fun d => [d.2]) ++
      (shared.filter (!·.1)).map (·.2) ++ (if rowColumn.isSome then [] else keys)
    return { name, columns, rowColumn, unique }

/-! ### Statements -/

def createTable (ts : Tokens) : Option (Statement × Tokens) := do
  let (ifAbsent, ts) := flag ["IF", "NOT", "EXISTS"] ts
  let (name, ts) ← name? ts
  let (parts, ts) ← parenthesized (sequence part ts.length) ts
  return (.createTable ifAbsent (← schema name parts), ts)

def dropTable (ts : Tokens) : Option (Statement × Tokens) := do
  let (ifPresent, ts) := flag ["IF", "EXISTS"] ts
  let (name, ts) ← name? ts
  return (.dropTable ifPresent name, ts)

def onConflict (ts : Tokens) : OnConflict × Tokens :=
  match words? ["OR", "IGNORE"] ts with
  | some rest => (.ignore, rest)
  | none =>
    match words? ["OR", "REPLACE"] ts with
    | some rest => (.replace, rest)
    | none => (.abort, (flag ["OR", "ABORT"] ts).2)

def insert (conflict : OnConflict) (ts : Tokens) : Option (Statement × Tokens) := do
  let (table, ts) ← name? (← word? "INTO" ts)
  let (columns, ts) := match names ts with
    | some (ns, rest) => (some ns, rest)
    | none => (none, ts)
  match words? ["DEFAULT", "VALUES"] ts with
  | some rest => return (.insert conflict table (some []) [[]], rest)
  | none =>
    let row (ts : Tokens) : Option (List (Expr Name) × Tokens) :=
      parenthesized (sequence expression ts.length) ts
    let (rows, ts) ← sequence row ts.length (← word? "VALUES" ts)
    return (.insert conflict table columns rows, ts)

def assignment (ts : Tokens) : Option ((String × Expr Name) × Tokens) := do
  let (name, ts) ← name? ts
  let (e, ts) ← expression (← symbol? "=" ts)
  return ((name, e), ts)

def update (ts : Tokens) : Option (Statement × Tokens) := do
  let (table, ts) ← name? ts
  let (assignments, ts) ← sequence assignment ts.length (← word? "SET" ts)
  let (condition, ts) ← clause "WHERE" ts
  return (.update table assignments condition, ts)

def delete (ts : Tokens) : Option (Statement × Tokens) := do
  let (table, ts) ← name? (← word? "FROM" ts)
  let (condition, ts) ← clause "WHERE" ts
  return (.delete table condition, ts)

def alias? (ts : Tokens) : Option (String × Tokens) :=
  let named : Tokens → Option (String × Tokens)
    | ⟨.literal (.text s), _, _⟩ :: rest => some (s, rest)
    | ts => name? ts
  match word? "AS" ts with
  | some rest => named rest
  | none => named ts

/-- A column of a result; the text it is written with is found in `source`. -/
def item (source : List Char) (ts : Tokens) : Option (Item × Tokens) :=
  match symbol? "*" ts with
  | some rest => some (.all, rest)
  | none => do
    let (e, rest) ← expression ts
    let used := ts.take (ts.length - rest.length)
    let start := (used.head?.map (·.start)).getD 0
    let stop := (used.getLast?.map (·.stop)).getD 0
    let text := String.ofList ((source.drop start).take (stop - start))
    match alias? rest with
    | some (name, rest) => return (.value e (some name) text, rest)
    | none => if (word? "AS" rest).isSome then none else return (.value e none text, rest)

def orderKey (ts : Tokens) : Option ((Expr Name × Bool) × Tokens) := do
  let (e, ts) ← expression ts
  match word? "DESC" ts with
  | some rest => return ((e, true), rest)
  | none => return ((e, false), (flag ["ASC"] ts).2)

def select (source : List Char) (ts : Tokens) : Option (Statement × Tokens) := do
  let (items, ts) ← sequence (item source) ts.length ts
  let (table, ts) ← match word? "FROM" ts with
    | some rest => (name? rest).map fun (n, r) => (some n, r)
    | none => some (none, ts)
  let (condition, ts) ← clause "WHERE" ts
  let (order, ts) ← match words? ["ORDER", "BY"] ts with
    | some rest => sequence orderKey rest.length rest
    | none => some ([], ts)
  let (limit, ts) ← clause "LIMIT" ts
  return (.select items table condition order limit, ts)

def statement (source : List Char) (ts : Tokens) : Option (Statement × Tokens) :=
  match ts with
  | ⟨.word w, _, _⟩ :: rest =>
    let transaction (rest : Tokens) := (flag ["TRANSACTION"] rest).2
    match upper w with
    | "CREATE" => (word? "TABLE" rest).bind createTable
    | "DROP" => (word? "TABLE" rest).bind dropTable
    | "INSERT" =>
      let (conflict, rest) := onConflict rest
      insert conflict rest
    | "REPLACE" => insert .replace rest
    | "UPDATE" => update rest
    | "DELETE" => delete rest
    | "SELECT" => select source rest
    | "BEGIN" =>
      let rest := (flag ["DEFERRED"] rest).2
      let rest := (flag ["IMMEDIATE"] rest).2
      some (.begin, transaction (flag ["EXCLUSIVE"] rest).2)
    | "COMMIT" | "END" => some (.commit, transaction rest)
    | "ROLLBACK" => some (.rollback, transaction rest)
    | "PRAGMA" => (word? "JOURNAL_MODE" rest).map (Statement.journalMode, ·)
    | _ => none
  | _ => none

end Parser

structure Prepared where
  statement : Statement
  parameters : Nat

def Prepared.ofText? (s : String) : Option Prepared := do
  let ts ← Token.ofText? s
  match Parser.statement s.toList ts with
  | some (st, []) => some ⟨st, Token.parameterCount ts⟩
  | _ => none

end ScriptGate.Sql
