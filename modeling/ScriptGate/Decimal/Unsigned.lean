/-!
# Unsigned numbers in decimal

A text writes a number below a bound as one or more digits, a plus in front allowed. The digits are
read from the left, and the first of them that is none or that leads out of range decides the fault.
-/

namespace ScriptGate.Decimal

inductive UnsignedFault where
  | empty
  | digit
  | tooLarge
  deriving DecidableEq, Repr

def UnsignedFault.message : UnsignedFault → String
  | .empty => "cannot parse integer from empty string"
  | .digit => "invalid digit found in string"
  | .tooLarge => "number too large to fit in target type"

/-- Reads digits behind a number that has been read. -/
def unsignedDigits (bound : Nat) : (n : Nat) → List Char → Except UnsignedFault Nat
  | n, [] => .ok n
  | n, c :: rest =>
    if !c.isDigit then .error .digit
    else
      let n := n * 10 + (c.toNat - 0x30)
      if n < bound then unsignedDigits bound n rest else .error .tooLarge

def unsigned (bound : Nat) (s : String) : Except UnsignedFault Nat :=
  match s.toList with
  | [] => .error .empty
  | ['+'] => .error .digit
  | '+' :: rest => unsignedDigits bound 0 rest
  | cs => unsignedDigits bound 0 cs

end ScriptGate.Decimal
