import ScriptGate.Guest.Argument
import ScriptGate.Password.Hash
import ScriptGate.Token
import ScriptGate.Word

/-!
# Passwords, digests and tokens

Functions of the guest answer with a value and nil, or with nil and the words for what went wrong.
-/

namespace ScriptGate.Guest

open Lua (Value Heap)

/-- An answer of two values: a result and nil, or nil and a message. -/
def answerOf (r : Except String Value) : List Value :=
  match r with
  | .ok v => [v, .nil]
  | .error message => [.nil, .text message]

namespace Secrets

/-! ### Passwords -/

/-- The costs that a script may ask for, and the one it gets where it asks for none. -/
structure Costs where
  least : Nat
  greatest : Nat
  usual : Nat

def passwordHash (c : Costs) (password : Bytes) (cost : Option Int64) (salt : Bytes) :
    Except String Value :=
  let cost : Int := cost.elim (c.usual : Int) (·.toInt)
  if cost < c.least ∨ (c.greatest : Int) < cost then
    .error ("cost " ++ toString cost ++ " outside " ++ toString c.least ++ "..=" ++
      toString c.greatest)
  else .ok (.str (Password.hash password cost.toNat salt))

def passwordCompare (args : List Value) : Except Fault (List Value) := do
  let hash ← Argument.text (Argument.get args 0)
  let password ← Argument.bytes (Argument.get args 1)
  return [.bool (Password.compare hash password)]

/-! ### Digests -/

def digest (args : List Value) : Except Fault (List Value) := do
  return answerOf (.ok (.text (Sha256.hexDigest (← Argument.bytes (Argument.get args 0)))))

/-! ### Tokens -/

/-- How long a token is good, in seconds, where a script does not say. -/
def usualLifetime : Int := 3600

/-- The secret in a table of options, empty where none is given. -/
def secret (h : Heap) (options : Nat) : Except Fault Bytes := do
  let s ← Argument.optional Argument.text (h.member options "secret")
  return Bytes.ofString (s.getD "")

def claims (h : Heap) (payload : Value) : Except Fault (Option Token.Claims) :=
  if payload.isNil then .ok (some [])
  else do
    match ← Argument.json h payload with
    | .obj members => return some members
    | _ => return none

/-- Claims with the times between which their token is good. -/
def timed (claims : Token.Claims) (now expiry : Int) : Token.Claims :=
  Json.insert "exp" (.int expiry) (Json.insert "iat" (.int now) claims)

def tokenEncode (h : Heap) (now : Int) (args : List Value) : Except Fault (List Value) := do
  let options ← Argument.table (Argument.get args 0)
  let secret ← secret h options
  let lifetime ← Argument.optional Argument.int (h.member options "expires_in")
  match ← claims h (h.member options "payload") with
  | none => return answerOf (.error Token.Fault.claimsNotMap.message)
  | some claims =>
    let lifetime := lifetime.elim usualLifetime (·.toInt)
    let expiry := now + lifetime
    if ¬Word.IsSigned64 expiry then
      return answerOf (.error ("expires_in " ++ toString lifetime ++ " is out of range"))
    else
      match Token.encode (timed claims now expiry) secret with
      | .ok t => return answerOf (.ok (.str t))
      | .error f => return answerOf (.error f.message)

def tokenDecode (h : Heap) (now : Int) (args : List Value) : Except Fault (List Value × Heap) := do
  let token ← Argument.text (Argument.get args 0)
  let options ← Argument.table (Argument.get args 1)
  match Token.decode (Bytes.ofString token) (← secret h options) now with
  | .error f => return (answerOf (.error f.message), h)
  | .ok claims =>
    let (v, h) ← Argument.ofJson (.obj claims) h
    return (answerOf (.ok v), h)

end Secrets

end ScriptGate.Guest
