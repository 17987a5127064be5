/-
# Powers of two and ten

The weights of the digits of a number in binary and in decimal notation: `twoTo` and `tenTo` are the
powers, with the exponent a natural number.
-/

namespace TextTemplate.Decimal

/-- Two to a power. -/
def twoTo (n : Nat) : Nat := Nat.pow 2 n

/-- Ten to a power. -/
def tenTo (n : Nat) : Nat := Nat.pow 10 n

end TextTemplate.Decimal
