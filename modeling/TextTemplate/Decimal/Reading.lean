/-
# Reading floating point numbers

The notation of a floating point number: a sign, digits of any script with single underscores
between them, a point, an exponent; or the words for an infinity and for "not a number".

* `readDecimal?` reads the notation exactly, as digits and a power of ten;
* `readFloat?` reads a whole text and rounds it to the nearest number.
-/
import TextTemplate.Decimal.Binary64
import TextTemplate.Decimal.Integer

namespace TextTemplate.Decimal

open TextTemplate.Text

/-- What a text may stand for. -/
inductive FloatReading where
  | number (x : Binary64)
  | notANumber
  deriving DecidableEq, Repr

/-- The digits at the beginning of a text, with single underscores between them, and the rest.
An underscore that no digit follows stops the reading in front of it. -/
def takeDigits : List Char → List Nat × List Char
  | [] => ([], [])
  | [c] =>
    match digitValue? c with
    | some d => ([d], [])
    | none => ([], [c])
  | c :: d :: cs =>
    match digitValue? c with
    | none => ([], c :: d :: cs)
    | some n =>
      if d = '_' then
        match cs with
        | [] => ([n], ['_'])
        | e :: _ =>
          if (digitValue? e).isSome then
            let p := takeDigits cs
            (n :: p.1, p.2)
          else ([n], d :: cs)
      else
        let p := takeDigits (d :: cs)
        (n :: p.1, p.2)

/-- A point and the digits behind it, if there is one. -/
def takeFraction : List Char → List Nat × List Char
  | '.' :: cs => takeDigits cs
  | cs => ([], cs)

/-- An exponent at the end of a number: `e` or `E`, a sign, and digits. -/
def readExponent? : List Char → Option Int
  | [] => some 0
  | c :: cs =>
    if c = 'e' ∨ c = 'E' then
      let (negative, digits) := readSign cs
      match takeDigits digits with
      | ([], _) => none
      | (ds, []) => some (if negative then -(ofDigits ds : Int) else ofDigits ds)
      | (_, _ :: _) => none
    else none

/-- An unsigned number in decimal notation as digits times a power of ten. -/
def readDecimal? (cs : List Char) : Option (List Nat × Int) :=
  let (whole, rest) := takeDigits cs
  let (fraction, rest) := takeFraction rest
  if whole.isEmpty && fraction.isEmpty then none
  else (readExponent? rest).map fun e => (whole ++ fraction, e - fraction.length)

/-- The number nearest to `digits * 10 ^ e`.  Far out of range the answer is known without
working the power out. -/
def roundDecimal (negative : Bool) (digits : List Nat) (e : Int) : Binary64 :=
  let digits := digits.dropWhile (· = 0)
  if digits.isEmpty then .zero negative
  else if 400 < digits.length + e then .infinite negative
  else if digits.length + e < -400 then .zero negative
  else if 0 ≤ e then Binary64.roundRatio negative (ofDigits digits * tenTo e.toNat) 1
  else Binary64.roundRatio negative (ofDigits digits) (tenTo (-e).toNat)

/-- Read a floating point number, with blanks around it. -/
def readFloat? (cs : List Char) : Option FloatReading :=
  let (negative, body) := readSign (trimNumber cs)
  let word := String.ofList (body.map Char.toLower)
  if word = "inf" ∨ word = "infinity" then some (.number (.infinite negative))
  else if word = "nan" then some .notANumber
  else (readDecimal? body).map fun p => .number (roundDecimal negative p.1 p.2)

end TextTemplate.Decimal
