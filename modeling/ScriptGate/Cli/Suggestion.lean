/-!
# Suggestions

The name that a mistyped one is most like: the one that shares the most runs of three characters
with it, blanks around each name included. Of equals the first one is taken.
-/

namespace ScriptGate.Cli

/-- The runs of three characters in a text that has two blanks in front and one behind. -/
def trigrams (s : String) : List (Char × Char × Char) :=
  let cs := s.toList
  ((' ' :: ' ' :: cs).zip ((' ' :: cs).zip (cs ++ [' '])))

/-- How many of the runs of one text the other one has. -/
def likeness (given name : String) : Nat :=
  let there := trigrams name.toLower
  ((trigrams given.toLower).filter there.contains).length

/-- The name that is most like a given text. -/
def suggestion? (given : String) : List String → Option String
  | [] => none
  | name :: names => some <|
    names.foldl (fun best n => if likeness given best < likeness given n then n else best) name

end ScriptGate.Cli
