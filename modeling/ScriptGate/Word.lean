/-!
# Words

The integers that a word of a given number of bits holds.
-/

namespace ScriptGate.Word

abbrev count32 : Nat := 4294967296

abbrev count64 : Nat := 18446744073709551616

abbrev least32 : Int := -2147483648

abbrev greatest32 : Int := 2147483647

abbrev least64 : Int := -9223372036854775808

abbrev greatest64 : Int := 9223372036854775807

abbrev greatestUnsigned64 : Int := 18446744073709551615

def IsSigned32 (i : Int) : Prop := least32 ≤ i ∧ i ≤ greatest32

instance (i : Int) : Decidable (IsSigned32 i) := inferInstanceAs (Decidable (_ ∧ _))

def IsSigned64 (i : Int) : Prop := least64 ≤ i ∧ i ≤ greatest64

instance (i : Int) : Decidable (IsSigned64 i) := inferInstanceAs (Decidable (_ ∧ _))

end ScriptGate.Word
