import ScriptGate.FileTree
import ScriptGate.Sql.Connection

/-!
# Database files

The files below the data directory with what is committed in them, and the directories that have
been made for them.
-/

namespace ScriptGate.Storage

structure Files where
  databases : List (Place × Sql.Database) := []
  directories : List Place := []

namespace Files

def find? (fs : Files) (p : Place) : Option Sql.Database := fs.databases.lookup p

def set (fs : Files) (p : Place) (d : Sql.Database) : Files :=
  { fs with databases := (p, d) :: fs.databases.filter (·.1 != p) }

def isDirectory (fs : Files) (p : Place) : Bool := p.isEmpty || fs.directories.contains p

def maxName : Nat := 255

def hasNull (name : String) : Bool := name.toList.contains '\x00'

def isName (name : String) : Bool := name.utf8ByteSize ≤ maxName && !hasNull name

/-- Makes directories of these names, each in the one before it, as far as they can be made; the
second answer says whether all of them are there now. -/
def makeDirectories (fs : Files) (above : Place) : (names : List String) → Files × Bool
  | [] => (fs, true)
  | name :: names =>
    let d := above ++ [name]
    if (fs.find? d).isSome || !isName name then (fs, false)
    else
      let directories := if fs.isDirectory d then fs.directories else d :: fs.directories
      makeDirectories { fs with directories } d names

/-- Makes the directories above a place. A path with a null in it is refused as a whole. -/
def withDirectories (fs : Files) (p : Place) : Files × Bool :=
  if p.dropLast.any hasNull then (fs, false) else fs.makeDirectories [] p.dropLast

/-- Makes the file at a place where there is none, with nothing in it; the second answer says
whether there is one now. -/
def touch (fs : Files) (p : Place) : Files × Bool :=
  let (fs, made) := fs.withDirectories p
  if !made || fs.isDirectory p || !p.all isName then (fs, false)
  else
    match fs.find? p with
    | some _ => (fs, true)
    | none => (fs.set p {}, true)

end Files

end ScriptGate.Storage
