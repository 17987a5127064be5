/-
# Arithmetic

Integers have any size; an integer that meets a floating point number is rounded to one first,
which fails out of range.

* `Value.toInteger` and `Value.toFloat` convert values to numbers, texts included;
* `Eval.plus` adds numbers and joins texts, lists and tuples; `Eval.minus` subtracts numbers.
-/
import TextTemplate.Decimal.Reading
import TextTemplate.Value.Iteration

namespace TextTemplate

open TextTemplate.Decimal

/-! ## 1. Conversions -/

/-- A value as an integer.  A floating point number loses its fraction, a text is read. -/
def Value.toInteger (v : Value) : Except Cause Int :=
  match v with
  | .bool b => .ok b.toNat
  | .int n => .ok n
  | .float x =>
    match x.truncate? with
    | some n => .ok n
    | .none => .error .infinityToInteger
  | .nan _ => .error (.value .notANumber)
  | .text t _ =>
    match readInteger t.toList with
    | .ok n => .ok n
    | .error .malformed => .error (.value (.noInteger t))
    | .error (.tooLong digits) => .error (.value (.integerTooLong digits))
  | v => .error (.type (.noIntegerForm v.typeName))

/-- The floating point number nearest to an integer. -/
def nearestFloat (n : Int) : Except Cause Binary64 :=
  match Binary64.ofInt? n with
  | some x => .ok x
  | none => .error .integerToFloat

/-- A value as a floating point number, or as "not a number". -/
def Value.toFloat (v : Value) : Except Cause (Option Binary64) :=
  match v with
  | .bool b => (nearestFloat b.toNat).map some
  | .int n => (nearestFloat n).map some
  | .float x => .ok (some x)
  | .nan _ => .ok .none
  | .text t _ =>
    match readFloat? t.toList with
    | some (.number x) => .ok (some x)
    | some .notANumber => .ok .none
    | .none => .error (.value (.noFloat t))
  | v => .error (.type (.noFloatForm v.typeName))

/-! ## 2. Sums and differences -/

/-- A floating point result as a value; a result that is no number gets an identity. -/
def Eval.ofFloat (x : Option Binary64) : Eval Value :=
  match x with
  | some x => pure (.float x)
  | none => do
    let i ← Eval.make (·.newIdentity)
    pure (.nan i)

/-- An operation on numbers: exact on integers, rounded if one operand is a floating point
number. -/
def Eval.arithmetic (exact : Int → Int → Int) (rounded : Binary64 → Binary64 → Option Binary64)
    (x y : Numeric) : Eval Value :=
  match x, y with
  | .integer m, .integer n => pure (.int (exact m n))
  | .integer m, .binary y => do
    let x ← Eval.read fun _ => nearestFloat m
    Eval.ofFloat (rounded x y)
  | .binary x, .integer n => do
    let y ← Eval.read fun _ => nearestFloat n
    Eval.ofFloat (rounded x y)
  | .binary x, .binary y => Eval.ofFloat (rounded x y)
  | .undefined, .integer n => do
    let _ ← Eval.read fun _ => nearestFloat n
    Eval.ofFloat none
  | .integer m, .undefined => do
    let _ ← Eval.read fun _ => nearestFloat m
    Eval.ofFloat none
  | _, _ => Eval.ofFloat none

/-- The sum of two values: numbers are added; texts, lists and tuples are joined.  A text that is
joined is safe when both of its parts are. -/
def Eval.plus (a b : Value) : Eval Value := do
  let s ← get
  match a.numeric?, b.numeric? with
  | some x, some y => Eval.arithmetic (· + ·) Binary64.add? x y
  | _, _ =>
    match a, b with
    | .text t safe, .text u safe' => pure (.text (t ++ u) (safe && safe'))
    | .text .., b => Eval.fail (.type (.concatenation "str" b.typeName))
    | .list r, .list r' => Eval.make (·.newList (s.list r ++ s.list r'))
    | .list _, b => Eval.fail (.type (.concatenation "list" b.typeName))
    | .tuple r, .tuple r' => Eval.make (·.newTuple (s.tuple r ++ s.tuple r'))
    | .tuple _, b => Eval.fail (.type (.concatenation "tuple" b.typeName))
    | a, b => Eval.fail (.type (.operands "+" a.typeName b.typeName))

/-- A number as it is, and anything else read as an integer or, failing that, as a floating point
number. -/
def Value.readNumber (v : Value) : Except Cause Numeric :=
  match v.numeric? with
  | some x => .ok x
  | .none =>
    match v.toInteger with
    | .ok n => .ok (.integer n)
    | .error cause =>
      if cause.kind = .badValue then do
        match ← v.toFloat with
        | some x => .ok (.binary x)
        | .none => .ok .undefined
      else .error cause

/-- The difference of two values that are read as numbers. -/
def Eval.minus (a b : Value) : Eval Value := do
  let x ← Eval.read fun _ => a.readNumber
  let y ← Eval.read fun _ => b.readNumber
  Eval.arithmetic (· - ·) Binary64.sub? x y

end TextTemplate
