import ScriptGate.Caller
import ScriptGate.Decimal.Unsigned
import ScriptGate.Guest.Argument
import ScriptGate.Word

/-!
# What a script sees of its request

`lookup` walks into the parameters along a path of names with dots between them; positions in lists
begin at 1, and the empty path leads to the whole. The functions of the guest give a default where
there is nothing, or null.
-/

namespace ScriptGate.Guest.Request

open Lua (Value Heap)

def child? (v : Json) (step : String) : Option Json :=
  match v with
  | .obj members => Json.find? step members
  | .arr items =>
    match Decimal.unsigned Word.count64 step with
    | .ok (i + 1) => items[i]?
    | _ => none
  | _ => none

def steps (path : String) : List String := if path = "" then [] else Text.split '.' path

def lookup (root : Json) (path : String) : Option Json := (steps path).foldlM child? root

def keyText? : Value → Option String
  | .str s => some (Utf8.lossy s)
  | .number (.int i) => some (toString i.toInt)
  | _ => none

def present? (v : Option Json) : Option Json := v.filter (!·.isNull)

/-- The parameter of a path, or the default; all of them where no path is given. -/
def parameter (params : Json) (h : Heap) (path default : Value) : Except Fault (Value × Heap) :=
  let found := match keyText? path with
    | some p => lookup params p
    | none => some params
  match present? found with
  | some v => Argument.ofJson v h
  | none => .ok (default, h)

/-- The value of a header, or the default; a table of all where no name is given. -/
def header (c : Caller) (h : Heap) (name default : Value) : Value × Heap :=
  match keyText? name with
  | none => h.newTable (.ofEntries (c.headerPairs.map fun (n, v) => (.text n, .text v)))
  | some n => ((c.header n).elim default .text, h)

end ScriptGate.Guest.Request
