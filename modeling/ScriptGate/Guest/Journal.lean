import ScriptGate.Guest.Capability

/-!
# The journal

What scripts log, and what is logged about what they do.
-/

namespace ScriptGate.Guest

inductive Line where
  /-- What a script says of itself. -/
  | script (severity : Severity) (script session message : String)
  /-- An event of the business that a script is for. -/
  | event (severity : Severity) (script message : String)
  /-- A statement that a script runs on a connection with a log. -/
  | storage (operation script path sql : String)
  | outbound (script method url : String) (status : Nat)
  | outboundFailed (script method url error : String)
  deriving DecidableEq, Repr

def Severity.name : Severity → String
  | .debug => "DEBUG"
  | .info => "INFO"
  | .warn => "WARN"
  | .error => "ERROR"

namespace Line

def severity : Line → Severity
  | .script s .. => s
  | .event s .. => s
  | .storage .. | .outbound .. => .info
  | .outboundFailed .. => .warn

def target : Line → String
  | .event .. => "luagate::event"
  | .script .. | .storage .. | .outbound .. | .outboundFailed .. => "luagate::script"

def message : Line → String
  | .script _ _ _ m => m
  | .event _ name m => name ++ ": " ++ m
  | .storage operation .. => "storage " ++ operation
  | .outbound .. => "outbound request"
  | .outboundFailed .. => "outbound request failed"

/-- The fields beside the message that hold texts. -/
def fields : Line → List (String × String)
  | .script _ name session _ => [("script", name), ("session", session)]
  | .event .. => []
  | .storage _ name path sql => [("script", name), ("path", path), ("sql", sql)]
  | .outbound name method url _ => [("script", name), ("method", method), ("url", url)]
  | .outboundFailed name method url error =>
    [("script", name), ("method", method), ("url", url), ("error", error)]

def status? : Line → Option Nat
  | .outbound _ _ _ status => some status
  | _ => none

end Line

end ScriptGate.Guest
