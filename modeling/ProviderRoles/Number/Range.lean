/-! The ranges of the 64-bit integers, and powers of two and ten. -/
namespace ProviderRoles

/-- In the range of the signed 64-bit integers. -/
def FitsSigned (n : Int) : Prop := -9223372036854775808 ≤ n ∧ n ≤ 9223372036854775807

instance (n : Int) : Decidable (FitsSigned n) := inferInstanceAs (Decidable (_ ∧ _))

/-- In the range of the unsigned 64-bit integers. -/
def FitsUnsigned (n : Int) : Prop := 0 ≤ n ∧ n ≤ 18446744073709551615

instance (n : Int) : Decidable (FitsUnsigned n) := inferInstanceAs (Decidable (_ ∧ _))

def powerOfTwo (n : Nat) : Nat := Nat.pow 2 n

def powerOfTen (n : Nat) : Nat := Nat.pow 10 n

end ProviderRoles
