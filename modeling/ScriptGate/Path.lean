import ScriptGate.Text.Split

/-!
# Path texts

A path text is read as components: slashes separate, empty pieces count for nothing, and a single
dot counts only in front of a relative path.
-/

namespace ScriptGate

namespace Path

inductive Component where
  | root
  | current
  | parent
  | ordinary (name : String)
  deriving DecidableEq, Repr

/-- What one piece between slashes stands for; `first` marks the piece a relative path begins with.
-/
def Component.ofPiece? (first : Bool) (piece : String) : Option Component :=
  if piece = "" then none
  else if piece = "." then (if first then some .current else none)
  else if piece = ".." then some .parent
  else some (.ordinary piece)

def components (path : String) : List Component :=
  match Text.split '/' path with
  | "" :: rest =>
    if rest = [] then [] else .root :: rest.filterMap (Component.ofPiece? false)
  | first :: rest =>
    (Component.ofPiece? true first).toList ++ rest.filterMap (Component.ofPiece? false)
  | [] => []

def Component.name? : Component → Option String
  | .ordinary name => some name
  | _ => none

def append (path tail : String) : String :=
  if path = "" || path.endsWith "/" then path ++ tail else path ++ "/" ++ tail

/-- A name without its ending: what stands before its last dot, unless nothing does. -/
def stem (name : String) : String :=
  match (Text.split '.' name).reverse with
  | [] | [_] => name
  | _ :: before =>
    let text := Text.join "." before.reverse
    if text = "" then name else text

/-- A path text whose last name has another ending. A path with no name at its end stays as it is.
-/
def withEnding (path ending : String) : String :=
  match (Text.split '/' path).reverse.dropWhile fun piece => piece = "" || piece = "." with
  | last :: before =>
    if last = ".." then path
    else Text.join "/" (before.reverse ++ [stem last ++ "." ++ ending])
  | [] => path

/-- The components of a path behind those of another that it begins with. -/
def below? (base path : String) : Option (List Component) :=
  if (components base).isPrefixOf (components path) then
    some ((components path).drop (components base).length)
  else none

end Path

end ScriptGate
