/-
# Binary floating point numbers

Numbers with 53 binary digits and an exponent of bounded size, and the two infinities.  "Not a
number" is left out: an operation without a numeric result gives none.  All arithmetic is done
exactly on integers and then rounded once, to the nearest number, a tie to the even one.

* `Binary64` is the type; `roundRatio` rounds a quotient of natural numbers;
* `add?` and `sub?` are arithmetic, `order` and `orderInt` the exact order, also against integers;
* `ofInt?` and `truncate?` convert from and to integers.
-/
import TextTemplate.Decimal.Power

namespace TextTemplate.Decimal

/-- A floating point number: sign, significand and binary exponent, or an infinity.  A finite
number stands for `significand * 2 ^ exponent`; zero has exponent -1074 and a sign. -/
inductive Binary64 where
  | finite (negative : Bool) (significand : Nat) (exponent : Int)
  | infinite (negative : Bool)
  deriving DecidableEq, Repr

namespace Binary64

/-- The least exponent of a finite number. -/
def minExponent : Int := -1074

/-- The greatest exponent of a finite number. -/
def maxExponent : Int := 971

/-- Zero with a sign. -/
def zero (negative : Bool) : Binary64 := .finite negative 0 minExponent

/-! ## 1. Rounding -/

/-- The natural number nearest to `num / den`, a tie to the even one. -/
def nearest (num den : Nat) : Nat :=
  let q := num / den
  let r := num % den
  if 2 * r < den then q else if den < 2 * r then q + 1 else q + q % 2

/-- `num / den` divided by `2 ^ e`, again as a quotient. -/
def scale (num den : Nat) (e : Int) : Nat × Nat :=
  if 0 ≤ e then (num, den * twoTo e.toNat) else (num * twoTo (-e).toNat, den)

/-- A sign, a significand of up to 53 digits and an exponent as a number. -/
def assemble (negative : Bool) (significand : Nat) (e : Int) : Binary64 :=
  let (significand, e) := if significand = twoTo 53 then (twoTo 52, e + 1) else (significand, e)
  if maxExponent < e then .infinite negative else .finite negative significand e

/-- The number nearest to `num / den`, a tie to the even significand. -/
def roundRatio (negative : Bool) (num den : Nat) : Binary64 :=
  if num = 0 then zero negative
  else
    let e := (num.log2 : Int) - den.log2 - 53
    let (a, b) := scale num den e
    let e := max minExponent (if twoTo 53 ≤ a / b then e + 1 else e)
    let (a, b) := scale num den e
    assemble negative (nearest a b) e

/-- The number nearest to `m * 2 ^ e`; `zeroSign` is the sign of a zero. -/
def roundDyadic (zeroSign : Bool) (m : Int) (e : Int) : Binary64 :=
  if m = 0 then zero zeroSign
  else if 0 ≤ e then roundRatio (m < 0) (m.natAbs * twoTo e.toNat) 1
  else roundRatio (m < 0) m.natAbs (twoTo (-e).toNat)

/-! ## 2. Arithmetic -/

/-- The significand with its sign. -/
def signed (negative : Bool) (significand : Nat) : Int :=
  if negative then -(significand : Int) else significand

/-- The same number with the other sign. -/
def neg : Binary64 → Binary64
  | .finite negative m e => .finite (!negative) m e
  | .infinite negative => .infinite (!negative)

/-- The sum, unless it is the sum of the two infinities. -/
def add? : Binary64 → Binary64 → Option Binary64
  | .finite s₁ m₁ e₁, .finite s₂ m₂ e₂ =>
    let e := min e₁ e₂
    some (roundDyadic (s₁ && s₂)
      (signed s₁ m₁ * twoTo (e₁ - e).toNat + signed s₂ m₂ * twoTo (e₂ - e).toNat) e)
  | .infinite s₁, .infinite s₂ => if s₁ = s₂ then some (.infinite s₁) else none
  | .infinite s, .finite .. => some (.infinite s)
  | .finite .., .infinite s => some (.infinite s)

/-- The difference, unless both are the same infinity. -/
def sub? (x y : Binary64) : Option Binary64 := add? x y.neg

/-! ## 3. Order -/

/-- The order of `m * 2 ^ e` and `n * 2 ^ f`. -/
def compareDyadic (m e n f : Int) : Ordering :=
  let g := min e f
  compare (m * twoTo (e - g).toNat) (n * twoTo (f - g).toNat)

/-- The order of two numbers; zeros of both signs are equal. -/
def order : Binary64 → Binary64 → Ordering
  | .finite s₁ m₁ e₁, .finite s₂ m₂ e₂ => compareDyadic (signed s₁ m₁) e₁ (signed s₂ m₂) e₂
  | .infinite s₁, .infinite s₂ => compare (!s₁).toNat (!s₂).toNat
  | .infinite s, .finite .. => if s then .lt else .gt
  | .finite .., .infinite s => if s then .gt else .lt

/-- The exact order of a number and an integer. -/
def orderInt (x : Binary64) (n : Int) : Ordering :=
  match x with
  | .finite s m e => compareDyadic (signed s m) e n 0
  | .infinite s => if s then .lt else .gt

/-- Is it a zero of either sign? -/
def isZero : Binary64 → Bool
  | .finite _ m _ => m = 0
  | .infinite _ => false

/-! ## 4. Integers -/

/-- The number nearest to an integer, unless the integer is out of range. -/
def ofInt? (n : Int) : Option Binary64 :=
  match roundRatio (n < 0) n.natAbs 1 with
  | .infinite _ => none
  | x => some x

/-- The integer between zero and a finite number that is nearest to the number. -/
def truncate? : Binary64 → Option Int
  | .finite s m e =>
    let n := if 0 ≤ e then m * twoTo e.toNat else m / twoTo (-e).toNat
    some (if s then -(n : Int) else n)
  | .infinite _ => none

/-- The integer that the number is, if it is one. -/
def toInt? (x : Binary64) : Option Int :=
  match x.truncate? with
  | some n => if x.orderInt n = .eq then some n else none
  | none => none

end Binary64
end TextTemplate.Decimal
