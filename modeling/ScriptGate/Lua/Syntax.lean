import ScriptGate.Bytes
import ScriptGate.Lua.Number

/-!
# Chunks as trees

A chunk is a function of any number of arguments. A local variable is known by how many variables
have come into scope after it; a global one is a member of the table in the outermost variable.
-/

namespace ScriptGate.Lua

/-- Comparisons, and the joining of texts. Operators on numbers have a type of their own. -/
inductive Binary where
  | number (op : Number.Operator)
  | concat
  | eq | ne | lt | le | gt | ge
  deriving DecidableEq

inductive Unary where
  | minus | not | length | complement
  deriving DecidableEq

mutual

inductive Expr where
  | nil
  | bool (b : Bool)
  | number (n : Number)
  | str (s : Bytes)
  /-- The surplus arguments of the function. -/
  | rest
  | variable (index : Nat)
  | index (object key : Expr) (line : Nat)
  | call (function : Expr) (args : List Expr) (line : Nat)
  | method (object : Expr) (name : Bytes) (args : List Expr) (line : Nat)
  | function (f : Function)
  | binary (op : Binary) (left right : Expr) (line : Nat)
  | unary (op : Unary) (operand : Expr) (line : Nat)
  | and (left right : Expr)
  | or (left right : Expr)
  /-- Exactly one value of an expression. -/
  | single (e : Expr)
  | table (fields : List Field) (line : Nat)

inductive Field where
  | item (value : Expr)
  | keyed (key value : Expr)

inductive Stat where
  /-- Brings variables into scope; the flags mark those that are closed at the end of it. -/
  | locals (closing : List Bool) (values : List Expr) (line : Nat)
  | assign (targets values : List Expr) (line : Nat)
  | call (e : Expr)
  | block (body : List Stat)
  | whileDo (condition : Expr) (body : List Stat)
  /-- The last statement of the body is the condition. -/
  | repeatUntil (body : List Stat)
  /-- The condition of a repetition, in the scope of its body. -/
  | until (condition : Expr)
  | ifThen (condition : Expr) (body other : List Stat)
  | numericFor (start stop : Expr) (step : Option Expr) (body : List Stat) (line : Nat)
  | genericFor (count : Nat) (values : List Expr) (body : List Stat) (line : Nat)
  | localFunction (f : Function)
  | giveBack (values : List Expr)
  /-- Gives back what a call gives, without coming back first. -/
  | tailCall (call : Expr)
  | leave
  | goto (label : Bytes)
  | label (name : Bytes)

inductive Function where
  | mk (parameters : Nat) (takesRest : Bool) (body : List Stat)

end

instance : Inhabited Expr := ⟨.nil⟩
instance : Inhabited Stat := ⟨.leave⟩
instance : Inhabited Function := ⟨.mk 0 false []⟩

end ScriptGate.Lua
