import ScriptGate.Decimal.Unsigned

/-!
# Forms of command lines

What a command takes: options, arguments by position and commands of its own. A form is data, from
which both the reader of arguments and the help text are made.
-/

namespace ScriptGate.Cli

inductive Kind where
  | text
  /-- A number of so many bits. -/
  | number (bits : Nat)
  deriving DecidableEq, Repr

def Kind.fault? (value : String) : Kind → Option Decimal.UnsignedFault
  | .text => none
  | .number bits =>
    match Decimal.unsigned (1 <<< bits) value with
    | .ok _ => none
    | .error fault => some fault

structure Setting where
  short : Option Char := none
  long : String
  /-- The kind of its value; a switch has none. -/
  kind : Option Kind := some .text
  about : String
  deriving DecidableEq

def Setting.shortName? (o : Setting) : Option String := o.short.map fun c => "-" ++ c.toString

def Setting.longName (o : Setting) : String := "--" ++ o.long

/-- All names, the short one first. -/
def Setting.names (o : Setting) : List String := o.shortName?.toList ++ [o.longName]

structure Form where
  /-- The words that lead to the command, the name of the program first. -/
  path : String
  about : String
  settings : List Setting := []
  /-- Arguments by position with what they are. -/
  positions : List (String × String) := []
  /-- Commands with what they do. -/
  commands : List (String × String) := []

def helpNames : List String := ["--help", "help"]

def Form.setting? (f : Form) (name : String) : Option Setting :=
  f.settings.find? fun o => o.names.contains name

end ScriptGate.Cli
