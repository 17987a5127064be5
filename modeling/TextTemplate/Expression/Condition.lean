/-
# Conditions

A condition is an expression, a comparison of two expressions, or the negation of a condition.
It is read unit by unit, so an operator inside a string constant is no operator.  Negations may lie
inside each other as deep as the text has them: the room on a machine's stack, which a reader that
calls itself once for each of them can run out of, is no part of the language.

* `Comparator` is what stands between two expressions;
* `Condition` is the type, `Condition.read` reads one;
* `Condition.holds` evaluates one.  Values that cannot be compared satisfy no comparison.
-/
import TextTemplate.Expression.Basic
import TextTemplate.Text.Unit
import TextTemplate.Value.Order

namespace TextTemplate

open TextTemplate.Text

/-! ## 1. Comparators -/

/-- What stands between two expressions.  `is` compares like `==`. -/
inductive Comparator where
  | equal
  | unequal
  | identical
  | different
  | inside
  | outside
  | ordered (relation : OrderRelation)
  deriving DecidableEq, Repr

namespace Comparator

/-- A comparator as it is written. -/
def sign : Comparator → String
  | equal => "=="
  | unequal => "!="
  | identical => "is"
  | different => "is not"
  | inside => "in"
  | outside => "not in"
  | ordered relation => relation.sign

/-- The comparators of one word. -/
def oneWord : List Comparator :=
  [equal, unequal, identical, inside, ordered .less, ordered .greater, ordered .atMost,
    ordered .atLeast]

/-- The comparators of two words. -/
def twoWords : List Comparator := [different, outside]

/-- The comparator that units begin with, and the units behind it.  Two words come first. -/
def first? : List (List Char) → Option (Comparator × List (List Char))
  | [] => none
  | [u] => (oneWord.find? (·.sign.toList = u)).map (·, [])
  | u :: v :: rest =>
    match twoWords.find? (·.sign.toList = u ++ ' ' :: v) with
    | some op => some (op, rest)
    | none => (oneWord.find? (·.sign.toList = u)).map (·, v :: rest)

/-- The units around the first comparator; `left` are the units already passed. -/
def find? (left : List (List Char)) :
    List (List Char) → Option (List (List Char) × Comparator × List (List Char))
  | [] => none
  | u :: rest =>
    match first? (u :: rest) with
    | some (op, right) => some (left, op, right)
    | none => find? (left ++ [u]) rest

/-- The truth of a comparison that may have no answer. -/
def settled (answer : Option Bool) (whenTrue : Bool) : Bool :=
  match answer with
  | some b => b == whenTrue
  | none => false

/-- Does a value occur in a container?  Not in what is no container. -/
def occurs (v container : Value) : Eval Bool := do
  pure ((← Eval.unless (· == .mistyped) (Eval.contains container v)).getD false)

/-- Does the comparison hold? -/
def holds (op : Comparator) (a b : Value) : Eval Bool := do
  let s ← get
  match op with
  | equal | identical => pure (settled (s.equal? a b) true)
  | unequal | different => pure (settled (s.equal? a b) false)
  | inside => occurs a b
  | outside => do pure !(← occurs a b)
  | ordered relation => pure (settled (s.related relation a b).toOption true)

end Comparator

/-! ## 2. Conditions -/

/-- A condition. -/
inductive Condition where
  | truth (e : Expression)
  | negation (c : Condition)
  | comparison (op : Comparator) (left right : Expression)
  /-- The named flag has not been set. -/
  | flagUnset (name : String)
  deriving DecidableEq, Repr

namespace Condition

/-- A condition as it is written in messages. -/
def written : Condition → String
  | truth e => "(" ++ e.text ++ ")"
  | negation c => "(not " ++ c.written ++ ")"
  | comparison op left right => "(" ++ left.text ++ " " ++ op.sign ++ " " ++ right.text ++ ")"
  | flagUnset name => "not " ++ name

/-- The names that a condition refers to, from left to right. -/
def references : Condition → List String
  | truth e => e.references
  | negation c => c.references
  | comparison _ left right => left.references ++ right.references
  | flagUnset _ => []

/-- Read a condition without a negation in front, given by its text and its units. -/
def readPlain (text : List Char) (first : List Char) (rest : List (List Char)) :
    Except Cause Condition :=
  match Comparator.find? [first] rest with
  | none => (Expression.read (spaced (first :: rest))).map truth
  | some (left, op, right) =>
    if right.isEmpty then .error (.template (.noRightOperand op.sign (String.ofList text)))
    else do
      let left ← Expression.read (spaced left)
      let right ← Expression.read (spaced right)
      .ok (comparison op left right)

/-- The word that negates a condition. -/
def negationWord : List Char := ['n', 'o', 't']

/-- Read a condition.  What follows a negation is put together and cut into units once more, however
many negations there are: no limit on recursion is modelled. -/
def read (text : List Char) : Except Cause Condition :=
  match _h : units text with
  | [] => .error (.template .emptyCondition)
  | first :: rest =>
    if first = negationWord then
      if rest.isEmpty then .error (.template .negationWithoutOperand)
      else (read (spaced rest)).map negation
    else readPlain text first rest
termination_by (visible text).length
decreasing_by
  rename_i hfirst _
  rw [visible_spaced, ← visible_units text, _h, List.flatMap_cons, List.length_append, hfirst]
  exact Nat.lt_add_of_pos_left (by decide)

/-- Does a condition hold?  `set` are the flags that are set. -/
def holds (filters : Table Filter) (c : Scopes) (set : List String) : Condition → Eval Bool
  | truth e => do
    let v ← e.resolve filters c
    pure ((← get).truth v)
  | negation condition => do pure !(← condition.holds filters c set)
  | comparison op left right => do
    let a ← left.resolve filters c
    let b ← right.resolve filters c
    op.holds a b
  | flagUnset name => pure !(set.contains name)

end Condition
end TextTemplate
