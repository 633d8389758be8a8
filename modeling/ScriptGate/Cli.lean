import ScriptGate.Cli.Call
import ScriptGate.Cli.Serve

/-!
# The command line

A command line is either at an end when it has been read, or asks for a server or for a call.
-/

namespace ScriptGate.Cli

def program : String := "luagate"

def form : Form where
  path := program
  about := "luagate - JSON-RPC gateway for sandboxed Lua command scripts"
  commands := [("serve", Serve.form.about), ("call", Call.form.about)]

inductive Task where
  | finished (outcome : Outcome)
  | serve (config : Config)
  | call (address : String) (post : Call.Post)

def command (f : Form) (args : List String) (task : Given → Except Failure Task) : Task :=
  match f.read args with
  | .error stop => .finished (stop.outcome program)
  | .ok given =>
    match task given with
    | .error failure => .finished failure.outcome
    | .ok task => task

/-- The task of a command line. `nodeVariable` is what the environment gives as node id, and `drawn`
is the node id for want of another. -/
def task (args : List String) (nodeVariable : Option String) (drawn : String) : Task :=
  match form.read args with
  | .error stop => .finished (stop.outcome program)
  | .ok given =>
    match given.command with
    | some ("serve", args) => command Serve.form args fun g =>
      (Serve.config g nodeVariable drawn).map .serve
    | some ("call", args) => command Call.form args fun g =>
      (Call.post g).map (.call (Call.address g))
    | some _ | none => .finished { code := 0 }

end ScriptGate.Cli
