/-
# Operands

An operand is what an expression starts with and what its filters take as arguments: a string
constant, an integer, a range of integers, or the path of a variable.

* `Operand` is the type, `Operand.read` reads one;
* `plainName` drops what cannot stand in a name;
* `Operand.resolve` gives its value: a constant is itself, and each segment of a path is looked up
  in what the segments before it have found.
-/
import TextTemplate.Scopes.Layers
import TextTemplate.Text.Constant
import TextTemplate.Value.Call

namespace TextTemplate

open TextTemplate.Decimal TextTemplate.Text

/-! ## 1. The type -/

/-- What an operand stands for. -/
inductive OperandForm where
  | text (s : String)
  | integer (n : Nat)
  /-- The integers from the first to the last, both included. -/
  | range (first last : Int)
  | path (segments : List String)
  deriving DecidableEq, Repr

/-- An operand: its text without blanks at the ends, and what it stands for. -/
structure Operand where
  text : String
  form : OperandForm
  deriving DecidableEq, Repr

namespace Operand

/-- An operand as it is written in messages. -/
def written (o : Operand) : String := "<Variable: " ++ quoted o.text ++ ">"

/-- The name that an operand refers to, if it is no constant. -/
def reference? (o : Operand) : Option String :=
  match o.form with
  | .path _ => some o.text
  | _ => none

end Operand

/-! ## 2. Reading -/

/-- Can the character stand in a name? -/
def isNameChar (c : Char) : Bool :=
  ('a' ≤ c ∧ c ≤ 'z') ∨ ('A' ≤ c ∧ c ≤ 'Z') ∨ isAsciiDigit c ∨ c = '$' ∨ c = '_' ∨ c = '.'

/-- A text reduced to the characters that can stand in a name. -/
def plainName (cs : List Char) : List Char := cs.filter isNameChar

/-- The number that a row of digits stands for, within the limit on digits. -/
def readDigitRow (cs : List Char) : Except Cause Nat :=
  if cs.length > digitLimit then .error (.value (.integerTooLong cs.length))
  else .ok (ofDigits (cs.map fun c => c.toNat - '0'.toNat))

/-- A sign and digits at the beginning of a text: is there a minus, the digits, and the rest. -/
def takeSigned (cs : List Char) : Option (Bool × List Char × List Char) :=
  let negative := cs.head? = some '-'
  let body := if negative then cs.tail else cs
  match body.takeWhile isAsciiDigit with
  | [] => none
  | digits => some (negative, digits, body.dropWhile isAsciiDigit)

/-- The two ends of a range in brackets, `[first..last]` with blanks around the numbers. -/
def rangeEnds? (cs : List Char) : Option ((Bool × List Char) × (Bool × List Char)) :=
  match cs with
  | '[' :: rest => do
    let (negative, digits, rest) ← takeSigned (stripLeft rest)
    match stripLeft rest with
    | '.' :: '.' :: rest => do
      let (negative', digits', rest) ← takeSigned (stripLeft rest)
      if stripLeft rest = [']'] then some ((negative, digits), (negative', digits')) else none
    | _ => none
  | _ => none

/-- A number with a sign. -/
def signedNumber (part : Bool × List Char) : Except Cause Int := do
  let n ← readDigitRow part.2
  .ok (if part.1 then -(n : Int) else n)

/-- Read an operand. -/
def Operand.read (text : List Char) : Except Cause Operand := do
  let cs := strip text
  let form ← match constant? cs with
    | some s => .ok (.text (String.ofList s))
    | none =>
      if cs ≠ [] ∧ cs.all isAsciiDigit then (readDigitRow cs).map .integer
      else
        match rangeEnds? cs with
        | some (first, last) => do
          let a ← signedNumber first
          let b ← signedNumber last
          .ok (.range a b)
        | none =>
          match plainName cs with
          | [] => .error (.template (.noVariable (String.ofList cs)))
          | name => .ok (.path ((splitAt '.' name).map String.ofList))
  .ok ⟨String.ofList cs, form⟩

/-! ## 3. Resolving -/

/-- The kinds of errors for which a failed item makes a lookup go on with the attributes. -/
def passesToAttributes (kind : ErrorKind) : Bool :=
  kind ∈ [.mistyped, .missingAttribute, .missingKey, .badValue, .badIndex]

/-- The kinds of errors for which a failed item makes a lookup fail. -/
def failsLookup (kind : ErrorKind) : Bool :=
  kind ∈ [.badIndex, .badValue, .missingKey, .mistyped]

/-- A segment as an integer. -/
def segmentIndex? (segment : String) : Option Int := (readInteger segment.toList).toOption

/-- The last attempt of a lookup: the segment as an integer index. -/
def Eval.atIndex (segment : String) (within : Subject) (item : Value → Eval Value) :
    Eval Value := do
  let found ← match segmentIndex? segment with
    | some n => Eval.unless failsLookup (item (.int n))
    | none => pure none
  match found with
  | some v => pure v
  | none => Eval.fail (.lookup segment within)

/-- The scopes themselves have no attribute that a template can reach, this empty one apart. -/
def openAttribute : String := "__annotations__"

/-- The first segment of a path: a name in the scopes, or an integer that is bound there. -/
def Scopes.segment (c : Scopes) (segment : String) : Eval Value := do
  match ← Eval.unless passesToAttributes (c.lookup (.plain segment)) with
  | some v => Eval.settle (.value v)
  | none =>
    if segment = openAttribute then Eval.make (·.newDict [])
    else do Eval.settle (.value (← Eval.atIndex segment (.scopes c) c.lookup))

/-- A further segment: an item of the value, an attribute, or the item at an integer. -/
def Eval.segment (v : Value) (segment : String) : Eval Value := do
  match ← Eval.unless passesToAttributes (Eval.read (·.item v (.plain segment))) with
  | some found => Eval.settle (.value found)
  | none =>
    match (← get).attribute? v segment with
    | some (.ok member) => Eval.settle member
    | some (.error cause) => Eval.fail cause
    | none => do
      let found ← Eval.atIndex segment (.value v) fun key => Eval.read (·.item v key)
      Eval.settle (.value found)

/-- What a path leads to. -/
def Scopes.path (c : Scopes) : List String → Eval Value
  | [] => pure .none
  | first :: rest => do
    let v ← c.segment first
    rest.foldlM Eval.segment v

/-- The attribute of a context that tells which template a lookup failed in. -/
def templateAttribute : String := "template_name"

/-- A lookup that starts in a value.  When it fails, the value is asked for its template; that may
fail in turn. -/
def Eval.reporting (v : Value) (x : Eval Value) : Eval Value :=
  tryCatch x fun e => do
    let _ ← Eval.read (·.hasAttribute v templateAttribute)
    throw e

/-- What a lookup finds, or nothing if it fails. -/
def Eval.orNone (x : Eval Value) : Eval Value := do
  pure ((← Eval.unless (· == .missingVariable) x).getD .none)

namespace Operand

/-- The value of an operand. -/
def resolve (o : Operand) (c : Scopes) : Eval Value :=
  match o.form with
  | .text s => pure (.plain s)
  | .integer n => pure (.int n)
  | .range first last => pure (.range first (last + 1))
  | .path segments => c.path segments

/-- The value of an operand, with paths that start in a value instead of the scopes. -/
def resolveIn (o : Operand) (v : Value) : Eval Value :=
  match o.form with
  | .text s => pure (.plain s)
  | .integer n => pure (.int n)
  | .range first last => pure (.range first (last + 1))
  | .path segments => Eval.reporting v (segments.foldlM Eval.segment v)

/-- The value of an operand, or nothing if its path leads nowhere. -/
def resolveOrNone (o : Operand) (c : Scopes) : Eval Value := Eval.orNone (o.resolve c)

end Operand
end TextTemplate
