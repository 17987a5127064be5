/-
# The shortest decimal of a floating point number

A floating point number is written with the fewest decimal digits that read back as the same
number, and among those with the digits nearest to it.

* `shortestDigits` finds the digits: on the grid of 1, 2, … 17 digits the two neighbours of the
  number are tried, and the first grid with a neighbour that reads back wins;
* `DecimalLayout` is the layout, `outputLayout` the one in use: numbers from `10 ^ -4` up to below
  `10 ^ 16` are positional, others have an exponent of at least two digits.
-/
import TextTemplate.Decimal.Binary64
import TextTemplate.Decimal.Integer

namespace TextTemplate.Decimal

/-! ## 1. The digits -/

/-- The quotient `n / d` times `10 ^ k`, as a quotient. -/
def timesPowerOfTen (num den : Nat) (k : Int) : Nat × Nat :=
  if 0 ≤ k then (num * tenTo k.toNat, den) else (num, den * tenTo (-k).toNat)

/-- The number of decimal digits of a natural number. -/
def digitCount (n : Nat) : Nat := (Nat.toDigits 10 n).length

/-- The decimal point's place: the `k` with `10 ^ (k - 1) ≤ num / den < 10 ^ k`. -/
def pointOf (num den : Nat) : Int :=
  if den ≤ num then digitCount (num / den)
  else
    let d := digitCount (den / num)
    if den ≤ num * tenTo (d - 1) then 2 - (d : Int) else 1 - (d : Int)

/-- Does `digits * 10 ^ k` read back as the number `x`, which is positive? -/
def readsBack (x : Binary64) (digits : Nat) (k : Int) : Bool :=
  let (a, b) := timesPowerOfTen digits 1 k
  Binary64.roundRatio false a b = x

/-- On the grid of numbers `digits * 10 ^ k`, the neighbour of `num / den` that reads back as `x`;
of two the nearer, and on a tie the even one. -/
def onGrid? (x : Binary64) (num den : Nat) (k : Int) : Option Nat :=
  let (a, b) := timesPowerOfTen num den (-k)
  let low := a / b
  let r := a % b
  let lowHits := readsBack x low k
  let highHits := readsBack x (low + 1) k
  if lowHits && highHits then
    some (if 2 * r < b then low else if b < 2 * r then low + 1 else low + low % 2)
  else if lowHits then some low
  else if highHits then some (low + 1)
  else none

/-- Try the grids with the last `left` of 17 digit counts. -/
def searchGrids (x : Binary64) (num den : Nat) (point : Int) : (left : Nat) → Nat × Int
  | 0 => (0, point)
  | left + 1 =>
    let k := point - (17 - left)
    match onGrid? x num den k with
    | some digits => (digits, k)
    | none => searchGrids x num den point left

/-- The digits of a positive number, without trailing zeros, and the power of ten of the last
one. -/
def stripZeros : (fuel : Nat) → Nat → Int → Nat × Int
  | 0, digits, k => (digits, k)
  | fuel + 1, digits, k =>
    if digits ≠ 0 ∧ digits % 10 = 0 then stripZeros fuel (digits / 10) (k + 1) else (digits, k)

/-- The shortest digits of `significand * 2 ^ exponent`, and the power of ten of the last one. -/
def shortestDigits (significand : Nat) (exponent : Int) : Nat × Int :=
  let (num, den) := if 0 ≤ exponent then (significand * twoTo exponent.toNat, 1)
    else (significand, twoTo (-exponent).toNat)
  let (digits, k) := searchGrids (.finite false significand exponent) num den (pointOf num den) 17
  stripZeros 18 digits k

/-! ## 2. The layout -/

/-- How a decimal is laid out. -/
structure DecimalLayout where
  /-- The least place of the decimal point that is written positionally. -/
  minPoint : Int
  /-- The greatest place of the decimal point that is written positionally. -/
  maxPoint : Int
  /-- What follows an integral number. -/
  integralEnd : String
  /-- The least number of digits of an exponent. -/
  exponentWidth : Nat
  /-- The text of an infinity. -/
  infinity : String

/-- Numbers in the output: positional from `0.0001` up to below `10 ^ 16`, integral ones with
`.0`, exponents with a sign and two digits. -/
def outputLayout : DecimalLayout := ⟨-3, 16, ".0", 2, "inf"⟩

/-- Zeros in front of digits, up to a width. -/
def padZeros (width : Nat) (digits : String) : String :=
  String.ofList (List.replicate (width - digits.length) '0') ++ digits

/-- A positive decimal: `digits * 10 ^ k`. -/
def DecimalLayout.write (layout : DecimalLayout) (digits : Nat) (k : Int) : String :=
  let ds := Nat.toDigits 10 digits
  let point : Int := ds.length + k
  if layout.minPoint ≤ point ∧ point ≤ layout.maxPoint then
    if 0 ≤ k then String.ofList (ds ++ List.replicate k.toNat '0') ++ layout.integralEnd
    else if 0 < point then
      String.ofList (ds.take point.toNat) ++ "." ++ String.ofList (ds.drop point.toNat)
    else "0." ++ String.ofList (List.replicate (-point).toNat '0' ++ ds)
  else
    let e := point - 1
    let mantissa := match ds with
      | [d] => String.singleton d
      | d :: rest => String.ofList (d :: '.' :: rest)
      | [] => ""
    mantissa ++ "e" ++ (if e < 0 then "-" else "+") ++
      padZeros layout.exponentWidth (decimalNat e.natAbs)

/-- The text of a floating point number. -/
def Binary64.text (x : Binary64) : String :=
  match x with
  | .infinite negative => (if negative then "-" else "") ++ outputLayout.infinity
  | .finite negative significand exponent =>
    (if negative then "-" else "") ++
      if significand = 0 then "0" ++ outputLayout.integralEnd
      else
        let (digits, k) := shortestDigits significand exponent
        outputLayout.write digits k

end TextTemplate.Decimal
