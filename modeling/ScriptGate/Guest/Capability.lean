/-!
# What the host offers to scripts

The modules that a script can require from the host, the functions in them, and the objects that
some of the functions give. A script sees only names for them: what a function does is up to the
host.
-/

namespace ScriptGate.Guest

inductive Module where
  | session
  | log
  | net
  | bcrypt
  | sha256
  | jwt
  | sqlite
  deriving DecidableEq, Repr

def Module.name : Module → String
  | .session => "internal.session"
  | .log => "internal.log"
  | .net => "internal.net"
  | .bcrypt => "internal.crypt.bcrypt"
  | .sha256 => "internal.crypt.sha256"
  | .jwt => "internal.crypt.jwt"
  | .sqlite => "internal.database.sqlite"

def Module.all : List Module := [.session, .log, .net, .bcrypt, .sha256, .jwt, .sqlite]

inductive Severity where
  | debug
  | info
  | warn
  | error
  deriving DecidableEq, Repr

inductive Capability where
  /-- Makes the table of a module. -/
  | loader (module : Module)
  | paramsGet
  | headersGet
  | responseSet
  | responseSend
  | responseSetError
  | responseSendError
  | logLine (severity : Severity)
  | logEvent (severity : Severity)
  | httpGet
  | httpPost
  | passwordHash
  | passwordCompare
  | digest
  | tokenEncode
  | tokenDecode
  | storageConnect
  | connectionExec
  | connectionQuery
  | connectionClose
  | writeWait
  | writeCheck
  deriving DecidableEq, Repr

/-- The objects of the host, by number. -/
inductive Object where
  | connection (number : Nat)
  | write (number : Nat)
  /-- An error that a function of the host has raised. -/
  | failure (number : Nat)
  deriving DecidableEq, Repr

end ScriptGate.Guest
