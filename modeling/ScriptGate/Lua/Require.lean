import ScriptGate.Bytes
import ScriptGate.Text.Split

/-!
# The search for module files

A path is a list of templates with semicolons between them. A module is looked for in the file of
each template in turn, every question mark in it standing for the name of the module, in which the
dots have become slashes.
-/

namespace ScriptGate.Lua.Require

def semicolon : UInt8 := 0x3B
def questionMark : UInt8 := 0x3F
def dot : UInt8 := 0x2E
def slash : UInt8 := 0x2F

def untilZero (s : Bytes) : Bytes := s.takeWhile (· != 0)

def substitute (what : UInt8) (value s : Bytes) : Bytes :=
  s.flatMap fun b => if b = what then value else [b]

def substituteAll (what value : Bytes) : (fuel : Nat) → Bytes → Bytes
  | 0, s => s
  | _, [] => []
  | fuel + 1, b :: r =>
    if what.isPrefixOf (b :: r) then
      value ++ substituteAll what value fuel ((b :: r).drop what.length)
    else b :: substituteAll what value fuel r

def fileName (name separator replacement : Bytes) : Bytes :=
  if separator = [] then name else substituteAll separator replacement (name.length + 1) name

def candidates (path file : Bytes) : List Bytes :=
  let all := substitute questionMark file path
  if all = [] then [] else Text.splitAt semicolon all

def moduleCandidates (path name : Bytes) : List Bytes :=
  candidates path (fileName name [dot] [slash])

/-- A file without a mark of its encoding and without a first line that begins with a hash. -/
def chunkText (s : Bytes) : Bytes :=
  let s := match s with
    | 0xEF :: 0xBB :: 0xBF :: r => r
    | s => s
  match s with
  | 0x23 :: r => 0x0A :: (r.dropWhile (· != 0x0A)).drop 1
  | s => s

def noFile (path : Bytes) : Bytes := Bytes.ofString "\n\tno file '" ++ path ++ Bytes.ofString "'"

end ScriptGate.Lua.Require
