import ScriptGate.Cli.Form
import ScriptGate.Text.Split

/-!
# Help texts

A help text shows how a command is called, what it does, and each thing that it takes in two
columns. The right column begins at the twentieth character and ends before the eightieth.
-/

namespace ScriptGate.Cli

/-- Where the right column begins. -/
def columnStart : Nat := 20

def lineWidth : Nat := 80

/-- Puts words behind a line that ends with a word, and on new lines where one is full. -/
def fill (line : String) : List String → List String
  | [] => [line]
  | word :: words =>
    if lineWidth < line.length + word.length + 1 then
      line :: fill ("".pushn ' ' columnStart ++ word) words
    else fill (line ++ " " ++ word) words

/-- The lines for a name and what it stands for. A name too long for the left column has a line of
its own. -/
def entry (name about : String) : List String :=
  let left := "  " ++ name
  match Text.split ' ' about with
  | [] => [left]
  | word :: words =>
    if left.length < columnStart then
      fill (left.pushn ' ' (columnStart - left.length) ++ word) words
    else left :: fill ("".pushn ' ' columnStart ++ word) words

def Setting.usage (o : Setting) : String :=
  let name := o.shortName?.getD o.longName
  match o.kind with
  | none => "[" ++ name ++ "]"
  | some _ => "[" ++ name ++ " <" ++ o.long ++ ">]"

def Form.usage (f : Form) : List String :=
  let positions := f.positions.map fun p => "<" ++ p.1 ++ ">"
  ["Usage: " ++ f.path] ++ f.settings.map Setting.usage ++
    (if positions.isEmpty then [] else "[--]" :: positions) ++
    (if f.commands.isEmpty then [] else ["<command>", "[<args>]"])

def part (title : String) (entries : List (String × String)) : String :=
  Text.join "\n" (title :: entries.flatMap fun e => entry e.1 e.2)

def Form.help (f : Form) : String :=
  let settings := f.settings.map fun o => (Text.join ", " o.names, o.about)
  let parts := [Text.join " " f.usage, f.about] ++
    (if f.positions.isEmpty then [] else [part "Positional Arguments:" f.positions]) ++
    [part "Options:" (settings ++ [(Text.join ", " helpNames, "display usage information")])] ++
    (if f.commands.isEmpty then [] else [part "Commands:" f.commands])
  Text.join "\n\n" parts ++ "\n"

end ScriptGate.Cli
