import ScriptGate.FileTree
import ScriptGate.Method.Name

/-!
# Scripts of methods

The method `a.b` is answered by the script `a/b.lua` below the script root. `resolve` finds it only
where every step below the root is real: directories on the way, a regular file at the end, and no
symbolic link among them.
-/

namespace ScriptGate.Method

def scriptEnding : String := "lua"

def scriptSuffix : String := "." ++ scriptEnding

def scriptPlace : List String → Place
  | [] => []
  | [last] => [last ++ scriptSuffix]
  | directory :: next :: rest => directory :: scriptPlace (next :: rest)

def place (name : String) : Except Fault Place := (segments name).map scriptPlace

/-- The path text of a method's script: the segments stand one after the other behind the root, and
nothing but names may stand there. -/
def scriptPath (root name : String) : Except Fault String := do
  let parts ← segments name
  let path := Path.withEnding (parts.foldl Path.append root) scriptEnding
  match Path.below? root path with
  | some rest => if rest.all (·.name?.isSome) then return path else throw (.notFound name)
  | none => throw (.notFound name)

/-- Whether each name below `base` is a real directory and the last a regular file. -/
def isReal (t : FileTree) (base : Place) : Place → Bool
  | [] => false
  | [last] => match t.entry? (base ++ [last]) with
    | some (.file _) => true
    | _ => false
  | directory :: next :: rest =>
    match t.entry? (base ++ [directory]) with
    | some .directory => isReal t (base ++ [directory]) (next :: rest)
    | _ => false

/-- The place of a method's script below the root, if it is there in a tree. -/
def resolve (t : FileTree) (root : List Path.Component) (name : String) : Except Fault Place := do
  let p ← place name
  match t.locate root with
  | none => .error (.notFound name)
  | some base => if isReal t base p then .ok p else .error (.notFound name)

end ScriptGate.Method
