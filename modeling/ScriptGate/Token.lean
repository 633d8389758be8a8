import ScriptGate.Digest.Sha256
import ScriptGate.Json.Parser
import ScriptGate.Json.Printer
import ScriptGate.Text.Base64Url
import ScriptGate.Text.Split
import ScriptGate.Word

/-!
# Signed tokens

A token is three segments joined by dots: a header that names the algorithm, the claims, and the
HMAC-SHA256 of the first two under a secret. A token with a numeric `exp` claim is good only before
that time.
-/

namespace ScriptGate.Token

abbrev Claims := List (String × Json)

inductive Fault where
  | malformed
  | unsupportedAlgorithm (name : String)
  | badSignature
  | expired
  | emptySecret
  | claimsNotMap
  deriving DecidableEq, Repr

def Fault.message : Fault → String
  | .malformed => "malformed token"
  | .unsupportedAlgorithm name => "unsupported algorithm: " ++ name
  | .badSignature => "invalid signature"
  | .expired => "token expired"
  | .emptySecret => "secret must not be empty"
  | .claimsNotMap => "claims must be a map"

def algorithm : String := "HS256"

def header : Json := .obj [("alg", .str algorithm), ("typ", .str "JWT")]

def dot : UInt8 := 0x2E

def signature (secret head payload : Bytes) : Bytes :=
  Sha256.hmac secret (head ++ dot :: payload)

def encode (claims : Claims) (secret : Bytes) : Except Fault Bytes :=
  if secret = [] then .error .emptySecret
  else
    let head := Base64Url.encode header.encode
    let payload := Base64Url.encode (Json.obj claims).encode
    .ok (head ++ dot :: payload ++ dot :: Base64Url.encode (signature secret head payload))

def segment? (s : Bytes) : Option Json :=
  match Base64Url.decode? s with
  | none => none
  | some b => (Json.parse b).toOption

def member? (key : String) : Json → Option Json
  | .obj members => Json.find? key members
  | _ => none

/-- The time of a numeric claim: an integer of sixty-four signed bits as it is, any other number
truncated and held in that range. -/
def time? : Json → Option Int
  | .num (.int i _) =>
    some (if i ≤ Word.greatest64 then i
      else (Binary64.ofInt i).saturate Word.least64 Word.greatest64)
  | .num (.float x _) => some (x.saturate Word.least64 Word.greatest64)
  | _ => none

def expiry? (claims : Claims) : Option Int := (Json.find? "exp" claims).bind time?

def isExpired (claims : Claims) (now : Int) : Bool := (expiry? claims).any (· ≤ now)

def decodeSegments (head payload sign secret : Bytes) (now : Int) : Except Fault Claims :=
  match (segment? head).bind (member? "alg") with
  | some (.str name) =>
    if name ≠ algorithm then .error (.unsupportedAlgorithm name)
    else
      match Base64Url.decode? sign with
      | none => .error .malformed
      | some given =>
        if given ≠ signature secret head payload then .error .badSignature
        else
          match segment? payload with
          | none => .error .malformed
          | some (.obj claims) => if isExpired claims now then .error .expired else .ok claims
          | some _ => .error .claimsNotMap
  | _ => .error .malformed

/-- The claims of a token, when its signature fits the secret and it has not expired. -/
def decode (token secret : Bytes) (now : Int) : Except Fault Claims :=
  if secret = [] then .error .emptySecret
  else
    match Text.splitAt dot token with
    | [head, payload, sign] => decodeSegments head payload sign secret now
    | _ => .error .malformed

end ScriptGate.Token
