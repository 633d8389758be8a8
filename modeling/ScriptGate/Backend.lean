import ScriptGate.Engine
import ScriptGate.Method.Script
import ScriptGate.Rpc.Response

/-!
# Back-ends

A back-end serves the calls of one context version. The back-end of the scripts checks the method,
then the script, then the parameters, and enters the engine only with a call that has passed all
three.
-/

namespace ScriptGate

/-- How a back-end ends a call. -/
inductive Ending where
  | answered (response : Rpc.Response)
  /-- It came to an abrupt end and left no answer. -/
  | crashed
  deriving DecidableEq

/-- What serves calls. The state is what its calls share. -/
abbrev Backend (σ : Type) := Caller → Rpc.Request → σ → Ending × σ

namespace Backend

def methodError : Method.Fault → Rpc.Error
  | .missing => .methodMissing
  | .invalidFormat _ => .invalidMethodFormat
  | .notFound _ => .methodNotFound

/-- The parameters that a script sees: null where a call has none, else an array or an object. -/
def params : Option Json → Except Rpc.Error Json
  | none => .ok .null
  | some (.arr items) => .ok (.arr items)
  | some (.obj members) => .ok (.obj members)
  | some _ => .error .invalidParams

def scriptCall (root : String) (t : FileTree) (caller : Caller) (r : Rpc.Request) :
    Except Rpc.Error Guest.Call :=
  match Method.resolve t (Path.components root) r.method with
  | .error fault => .error (methodError fault)
  | .ok place => (params r.params).map fun params =>
    { caller, method := r.method, params, script := Text.join "/" place }

/-- The response to a request without a stamp. A fault of the engine shows as an internal error. -/
def respond (r : Rpc.Request) : Except Rpc.Error (Except Engine.Fault Answer.Reply) → Rpc.Response
  | .ok (.ok (.result value)) => .success (r.id.getD .null) value
  | .ok (.ok (.error error)) => .failure (r.id.getD .null) error
  | .ok (.error _) => .failure (r.id.getD .null) .internalError
  | .error error => .failure (r.id.getD .null) error

def scripts (t : FileTree) (now : Int) : Backend Engine := fun caller r g =>
  match scriptCall g.root t caller r with
  | .error error => (.answered (respond r (.error error)), g)
  | .ok call =>
    let outcome := g.execute t now call
    (.answered (respond r (.ok outcome.answer)), outcome.engine)

def scriptVersion : String := "v1"

end Backend

end ScriptGate
