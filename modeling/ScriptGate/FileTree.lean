import ScriptGate.Bytes
import ScriptGate.Path

/-!
# File trees

A tree maps the places below a base directory to directories, files and symbolic links. A place is a
list of names from the base; `entry?` looks at a place without following links, and `locate` walks a
path the way a file system does, following every link on the way.
-/

namespace ScriptGate

/-- A place below the base directory: the names on the way to it. -/
abbrev Place := List String

inductive Entry where
  | directory
  | file (content : Bytes)
  /-- A link to a path from the base directory. -/
  | link (target : String)
  deriving DecidableEq

/-- The entries of a tree by their places. The base directory itself is always there. -/
structure FileTree where
  entries : List (Place × Entry) := []

namespace FileTree

/-- What stands at a place, no link being followed. -/
def entry? (t : FileTree) (p : Place) : Option Entry :=
  if p = [] then some .directory else t.entries.lookup p

def insert (t : FileTree) (p : Place) (e : Entry) : FileTree :=
  ⟨(p, e) :: t.entries.filter (·.1 ≠ p)⟩

/-- The names of a path without its dots, from the base. -/
def names (path : String) : Place := (Path.components path).filterMap Path.Component.name?

/-- How many links one walk follows at most. -/
def maxLinks : Nat := 40

/-- Walks the components `rest` from the directory `place`; what `follow` says comes of a link. -/
def walkWith (t : FileTree) (follow : Place → List Path.Component → Option Place) :
    (place : Place) → (rest : List Path.Component) → Option Place
  | place, [] => some place
  | place, c :: rest =>
    match t.entry? place with
    | some .directory =>
      match c with
      | .root => walkWith t follow [] rest
      | .current => walkWith t follow place rest
      | .parent => walkWith t follow place.dropLast rest
      | .ordinary name =>
        match t.entry? (place ++ [name]) with
        | none => none
        | some (.link target) => follow place (.root :: Path.components target ++ rest)
        | some _ => walkWith t follow (place ++ [name]) rest
    | _ => none

/-- Walks the components `rest` from the directory `place`; `links` links may still be followed. -/
def walk (t : FileTree) : (links : Nat) → (place : Place) → (rest : List Path.Component) →
    Option Place
  | 0 => t.walkWith fun _ _ => none
  | links + 1 => t.walkWith (t.walk links)

/-- The place that a path from the base directory leads to, all links followed. -/
def locate (t : FileTree) (path : List Path.Component) : Option Place := t.walk maxLinks [] path

def read? (t : FileTree) (path : List Path.Component) : Option Bytes :=
  match (t.locate path).bind t.entry? with
  | some (.file content) => some content
  | _ => none

end FileTree

end ScriptGate
