import ScriptGate.Cli.Arguments

/-!
# Outcomes of commands

What a command leaves: an exit code and two texts. A failure has a message and the causes behind it,
the nearest one first; they are numbered where there is more than one.
-/

namespace ScriptGate.Cli

/-- The exit code of a command and what it has written. -/
structure Outcome where
  code : Nat
  stdout : String := ""
  stderr : String := ""
  deriving DecidableEq, Repr

structure Failure where
  message : String
  causes : List String := []
  deriving DecidableEq, Repr

namespace Failure

/-- A text with a mark in front of its first line and blanks in front of every other one. -/
def block (mark blanks text : String) : String :=
  mark ++ Text.join ("\n" ++ blanks) (Text.split '\n' text)

def causeLines : List String → List String
  | [] => []
  | [cause] => [block "    " "    " cause]
  | causes => causes.zipIdx.map fun (cause, n) =>
    let number := toString n
    block ("".pushn ' ' (5 - number.length) ++ number ++ ": ") "       " cause

def text (f : Failure) : String :=
  if f.causes.isEmpty then f.message
  else Text.join "\n" ([f.message, "", "Caused by:"] ++ causeLines f.causes)

def outcome (f : Failure) : Outcome where
  code := 1
  stderr := "Error: " ++ f.text ++ "\n"

end Failure

def Stop.outcome (program : String) : Stop → Outcome
  | .help text => { code := 0, stdout := text ++ "\n" }
  | .refused fault => {
    code := 1
    stderr := fault.message ++ "\nRun " ++ program ++ " --help for more information.\n" }

end ScriptGate.Cli
