import ScriptGate.Bytes
import ScriptGate.Decimal.Unsigned
import ScriptGate.Text.Split

/-!
# Addresses of resources

An address names a scheme, a host with a port, and what is asked for there. Its text is canonical:
the host is in lower case, the port of the scheme is left out, the path is never empty, and bytes
that cannot stand in an address are escaped.
-/

namespace ScriptGate.Http

inductive Scheme where
  | http
  | https
  deriving DecidableEq, Repr

def Scheme.name : Scheme → String
  | .http => "http"
  | .https => "https"

def Scheme.port : Scheme → Nat
  | .http => 80
  | .https => 443

structure Url where
  scheme : Scheme
  host : String
  port : Nat
  path : String
  /-- The query with its mark, and the fragment with its own. -/
  tail : String
  deriving DecidableEq, Repr

inductive UrlFault where
  | relative
  | emptyHost
  | port
  deriving DecidableEq, Repr

def UrlFault.message : UrlFault → String
  | .relative => "relative URL without a base"
  | .emptyHost => "empty host"
  | .port => "invalid port number"

namespace Url

/-- Whether a byte has to be escaped in a path; the braces only there and not behind it. -/
def isEscaped (inPath : Bool) (b : UInt8) : Bool :=
  b ≤ 0x20 || 0x7F ≤ b || [0x22, 0x3C, 0x3E].contains b ||
    (inPath && [0x60, 0x7B, 0x7D].contains b)

def escape (inPath : Bool) (s : String) : String :=
  String.join <| (Bytes.ofString s).map fun b =>
    if isEscaped inPath b then "%" ++ (Bytes.toHex [b]).toUpper
    else (Char.ofNat b.toNat).toString

def scheme? (s : String) : Option (Scheme × List Char) :=
  if s.startsWith "http://" then some (.http, s.toList.drop 7)
  else if s.startsWith "https://" then some (.https, s.toList.drop 8)
  else none

/-- The host and the port of an authority, which is split at its last colon that no bracket follows.
-/
def hostPort (scheme : Scheme) (authority : List Char) : Except UrlFault (String × Nat) :=
  let digits := (authority.reverse.takeWhile fun c => c ≠ ':' && c ≠ ']').reverse
  let host := authority.take (authority.length - digits.length)
  let split := match host.getLast? with
    | some ':' => (host.dropLast, digits)
    | _ => (authority, [])
  if split.1.isEmpty then .error .emptyHost
  else
    let host := (String.ofList split.1).toLower
    if split.2.isEmpty then .ok (host, scheme.port)
    else if split.2.all Char.isDigit then
      match Decimal.unsigned 65536 (String.ofList split.2) with
      | .ok port => .ok (host, port)
      | .error _ => .error .port
    else .error .port

def parse (s : String) : Except UrlFault Url :=
  match scheme? s with
  | none => .error .relative
  | some (scheme, rest) => do
    let isEnd (c : Char) := c = '/' || c = '?' || c = '#'
    let (host, port) ← hostPort scheme (rest.takeWhile fun c => !isEnd c)
    let rest := rest.dropWhile fun c => !isEnd c
    let path := String.ofList (rest.takeWhile fun c => c ≠ '?' && c ≠ '#')
    let tail := String.ofList (rest.dropWhile fun c => c ≠ '?' && c ≠ '#')
    return {
      scheme, host, port
      path := if path = "" then "/" else escape true path
      tail := escape false tail }

def text (u : Url) : String :=
  u.scheme.name ++ "://" ++ u.host ++
    (if u.port = u.scheme.port then "" else ":" ++ toString u.port) ++ u.path ++ u.tail

end Url

end ScriptGate.Http
