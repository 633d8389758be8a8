import ScriptGate.Cli.Suggestion
import ScriptGate.Cli.Usage

/-!
# Reading arguments

The arguments of a command are read from the left against its form. A request for help counts
wherever an option may stand; behind two dashes everything is an argument by position. What follows
the name of a command belongs to that command.
-/

namespace ScriptGate.Cli

inductive ArgumentFault where
  | unknownOption (given : String) (suggestion : Option String)
  | unexpected (given : String)
  | noValue (option : String)
  | repeated (option value : String)
  | badValue (option value : String) (fault : Decimal.UnsignedFault)
  /-- An option behind a request for help. -/
  | afterHelp
  | missing (positions : List String)
  | noCommand (names : List String)
  deriving DecidableEq, Repr

/-- Lines of names, each after a break. -/
def indented (names : List String) : String := names.foldl (fun s n => s ++ "\n    " ++ n) ""

def ArgumentFault.message : ArgumentFault → String
  | .unknownOption given (some name) =>
    "Unrecognized argument: \"" ++ given ++ "\". Did you mean \"" ++ name ++ "\"?\n"
  | .unknownOption given none => "Unrecognized argument: \"" ++ given ++ "\"\n"
  | .unexpected given => "Unrecognized argument: " ++ given ++ "\n"
  | .noValue option => "No value provided for option '" ++ option ++ "'.\n"
  | .repeated option value =>
    "Error parsing option '" ++ option ++ "' with value '" ++ value ++
      "': duplicate values provided\n"
  | .badValue option value fault =>
    "Error parsing option '" ++ option ++ "' with value '" ++ value ++ "': " ++
      fault.message ++ "\n"
  | .afterHelp => "Trailing arguments are not allowed after \x60help\x60."
  | .missing positions =>
    "Required positional arguments not provided:" ++ indented positions ++ "\n"
  | .noCommand names =>
    "One of the following subcommands must be present:" ++ indented ("help" :: names) ++ "\n"

/-- What ends the reading before a command is known. -/
inductive Stop where
  | help (text : String)
  | refused (fault : ArgumentFault)
  deriving DecidableEq

structure Given where
  /-- Values by the long names of their options. -/
  values : List (String × String) := []
  switches : List String := []
  positions : List String := []
  /-- A command and the arguments behind its name. -/
  command : Option (String × List String) := none
  deriving DecidableEq

def Given.put (g : Given) (o : Setting) (kind : Kind) (name value : String) :
    Except ArgumentFault Given :=
  if (g.values.lookup o.long).isSome then .error (.repeated name value)
  else
    match kind.fault? value with
    | some fault => .error (.badValue name value fault)
    | none => .ok { g with values := (o.long, value) :: g.values }

/-- Reads arguments behind those that have been read. `help` tells whether help has been asked for,
and `ended` whether the options have ended. -/
def Form.scan (f : Form) (help ended : Bool) (g : Given) :
    List String → Except ArgumentFault (Bool × Given)
  | [] => .ok (help, g)
  | arg :: rest =>
    if helpNames.contains arg && !ended then f.scan true ended g rest
    else if arg.startsWith "-" && !ended then
      if arg = "--" then f.scan help true g rest
      else if help then .error .afterHelp
      else
        match f.setting? arg with
        | none =>
          .error (.unknownOption arg (suggestion? arg (f.settings.flatMap (·.names) ++ helpNames)))
        | some o =>
          match o.kind, rest with
          | none, rest => f.scan help ended { g with switches := o.long :: g.switches } rest
          | some _, [] => .error (.noValue arg)
          | some kind, value :: rest =>
            match g.put o kind arg value with
            | .error fault => .error fault
            | .ok g => f.scan help ended g rest
    else if f.commands.any (·.1 = arg) then
      .ok (false, { g with command := some (arg, if help then "help" :: rest else rest) })
    else if g.positions.length < f.positions.length then
      f.scan help ended { g with positions := g.positions ++ [arg] } rest
    else .error (.unexpected arg)

def Form.read (f : Form) (args : List String) : Except Stop Given :=
  match f.scan false false {} args with
  | .error fault => .error (.refused fault)
  | .ok (true, _) => .error (.help f.help)
  | .ok (false, g) =>
    if g.positions.length < f.positions.length then
      .error (.refused (.missing ((f.positions.drop g.positions.length).map (·.1))))
    else if !f.commands.isEmpty && g.command.isNone then
      .error (.refused (.noCommand (f.commands.map (·.1))))
    else .ok g

def Given.value (g : Given) (long default : String) : String := (g.values.lookup long).getD default

def Given.number (g : Given) (bits : Nat) (long : String) (default : Nat) : Nat :=
  match (g.values.lookup long).map (Decimal.unsigned (1 <<< bits)) with
  | some (.ok n) => n
  | _ => default

end ScriptGate.Cli
