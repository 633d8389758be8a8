/-!
# Endpoints

The address of a gateway as a client is given it.
-/

namespace ScriptGate.Http

/-- An address with a scheme that no client speaks; `role` says what the address is for. -/
structure EndpointFault where
  role : String
  url : String
  deriving DecidableEq, Repr

def EndpointFault.message (f : EndpointFault) : String :=
  "Invalid " ++ f.role ++ ": '" ++ f.url ++ "' must start with http:// or https://"

def checkEndpoint (role url : String) : Except EndpointFault Unit :=
  if url.startsWith "http://" || url.startsWith "https://" then .ok () else .error ⟨role, url⟩

end ScriptGate.Http
