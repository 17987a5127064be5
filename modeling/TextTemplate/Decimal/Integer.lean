/-
# Integers in decimal notation

An integer of any size may be read or written, up to a fixed number of digits: beyond
`digitLimit` both directions refuse, since the work grows with the square of the length.

* `readInteger` reads the notation with a sign, digits of any script and single underscores
  between digits;
* `ofDigits` is the value of a row of digits, and `decimal` writes a number;
* `decimal?` writes an integer within the limit.
-/
import TextTemplate.Decimal.Power
import TextTemplate.Text.Blank
import TextTemplate.Text.Digit

namespace TextTemplate.Decimal

open TextTemplate.Text

/-- Numbers with more digits than this are neither read nor written. -/
def digitLimit : Nat := 4300

/-! ## 1. Reading -/

/-- Why a text is no integer. -/
inductive IntegerFault where
  /-- It is not in decimal notation. -/
  | malformed
  /-- It has this many digits, more than the limit. -/
  | tooLong (digits : Nat)
  deriving DecidableEq, Repr

/-- Blanks around a number: the information separators are not among them. -/
def isNumberBlank (c : Char) : Bool := isBlank c && !(28 ≤ c.toNat && c.toNat ≤ 31)

/-- A text without the blanks that may stand around a number. -/
def trimNumber (cs : List Char) : List Char :=
  ((cs.dropWhile isNumberBlank).reverse.dropWhile isNumberBlank).reverse

/-- The digits of an unsigned number.  An underscore must stand between two digits;
`afterDigit` says whether a digit has just been read. -/
def readDigits (afterDigit : Bool) : List Char → Option (List Nat)
  | [] => if afterDigit then some [] else none
  | c :: cs =>
    if c = '_' then (if afterDigit then readDigits false cs else none)
    else
      match digitValue? c with
      | some d => (readDigits true cs).map (d :: ·)
      | none => none

/-- The value of a row of decimal digits, the first the most significant. -/
def ofDigits (ds : List Nat) : Nat := ds.foldl (fun n d => 10 * n + d) 0

/-- A sign in front of a number: is it a minus, and what follows it? -/
def readSign : List Char → Bool × List Char
  | '-' :: cs => (true, cs)
  | '+' :: cs => (false, cs)
  | cs => (false, cs)

/-- Read an integer. -/
def readInteger (cs : List Char) : Except IntegerFault Int :=
  let (negative, digits) := readSign (trimNumber cs)
  match readDigits false digits with
  | none => .error .malformed
  | some ds =>
    if ds.length > digitLimit then .error (.tooLong ds.length)
    else .ok (if negative then -(ofDigits ds : Int) else ofDigits ds)

/-! ## 2. Writing -/

/-- A natural number in decimal notation. -/
def decimalNat (n : Nat) : String := String.ofList (Nat.toDigits 10 n)

/-- An integer in decimal notation. -/
def decimal (n : Int) : String :=
  if n < 0 then "-" ++ decimalNat n.natAbs else decimalNat n.natAbs

/-- An integer in decimal notation, if it keeps to the limit. -/
def decimal? (n : Int) : Option String :=
  if n.natAbs < tenTo digitLimit then some (decimal n) else none

end TextTemplate.Decimal
