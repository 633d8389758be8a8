import ScriptGate.Bytes
import ScriptGate.Text.Printable

/-!
# Quoted texts in messages

A text between double quotes in which every character can be seen: the quote, the backslash and four
controls have a short escape, and what has no printed form shows its code point.
-/

namespace ScriptGate.Text.Quoted

def escape (c : Char) : List Char :=
  if c = '\x00' then ['\\', '0']
  else if c = '\t' then ['\\', 't']
  else if c = '\r' then ['\\', 'r']
  else if c = '\n' then ['\\', 'n']
  else if c = '"' then ['\\', '"']
  else if c = '\\' then ['\\', '\\']
  else if isPrintable c then [c]
  else ['\\', 'u', '\x7b'] ++ Nat.toDigits 16 c.toNat ++ ['\x7d']

def encode (s : String) : String := String.ofList ('"' :: s.toList.flatMap escape ++ ['"'])

end ScriptGate.Text.Quoted
