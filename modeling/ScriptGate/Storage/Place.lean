import ScriptGate.FileTree
import ScriptGate.Text.Blank

/-!
# Storage paths

A script names a database by a path below the data directory. Paths that are blank, absolute or lead
upwards name none; the names in any other path say where its file is.
-/

namespace ScriptGate.Storage

def isInside : Path.Component → Bool
  | .ordinary _ | .current => true
  | .root | .parent => false

def place? (path : String) : Option Place :=
  let cs := Path.components path
  if Text.isAllBlank path || !cs.all isInside || (cs.getLast?.bind Path.Component.name?).isNone then
    none
  else some (cs.filterMap Path.Component.name?)

end ScriptGate.Storage
