/-
# The order of values

Numbers are ordered by value, texts by their characters, lists and tuples by their first
different parts.  Views of the keys and of the pairs of mappings are ordered by inclusion.
Values of other types, or of different types, have no order.

* `OrderRelation` is one of the four relations;
* `Store.related` tells whether it holds, or that the values have no order.
-/
import TextTemplate.Error
import TextTemplate.Value.Equality

namespace TextTemplate

/-! ## 1. Relations -/

/-- One of the four relations of an order. -/
inductive OrderRelation where
  | less
  | greater
  | atMost
  | atLeast
  deriving DecidableEq, Repr

/-- The sign of a relation. -/
def OrderRelation.sign : OrderRelation → String
  | .less => "<"
  | .greater => ">"
  | .atMost => "<="
  | .atLeast => ">="

/-- Does the relation hold between two things in this order? -/
def OrderRelation.holds : OrderRelation → Ordering → Bool
  | .less, o => o == .lt
  | .greater, o => o == .gt
  | .atMost, o => o != .gt
  | .atLeast, o => o != .lt

namespace Store

/-- The first pair of parts that are not the same, if there is one. -/
def firstDifference? (s : Store) : List (Value × Value) → Option (Option (Value × Value))
  | [] => some none
  | p :: rest => do
    if (← s.same? p.1 p.2) then s.firstDifference? rest else some (some p)

/-- Does the relation hold?  References are followed at most `fuel` deep. -/
def relatedWithin (s : Store) (relation : OrderRelation) :
    (fuel : Nat) → Value → Value → Except TypeFault Bool
  | 0, a, b => .error (.notComparable relation.sign a.typeName b.typeName)
  | fuel + 1, a, b =>
    let items (xs ys : List Value) : Except TypeFault Bool :=
      match s.firstDifference? (xs.zip ys) with
      | none => .error (.unhashable a.typeName)
      | some (some (x, y)) => s.relatedWithin relation fuel x y
      | some none => .ok (relation.holds (compare xs.length ys.length))
    match a.numeric?, b.numeric? with
    | some x, some y => .ok ((x.order? y).any relation.holds)
    | _, _ =>
      match a, b with
      | .text t _, .text u _ => .ok (relation.holds (compare t u))
      | .list r, .list r' => items (s.list r) (s.list r')
      | .tuple r, .tuple r' => items (s.tuple r) (s.tuple r')
      | .view kind r _, .view kind' r' _ =>
        if isSetLike kind && isSetLike kind' then
          if relation.holds (compare (s.dict r).length (s.dict r').length) then
            let within := match relation with
              | .less | .atMost => s.viewWithin s.same? kind r kind' r'
              | .greater | .atLeast => s.viewWithin s.same? kind' r' kind r
            match within with
            | some answer => .ok answer
            | none => .error (.unhashable a.typeName)
          else .ok false
        else .error (.notComparable relation.sign a.typeName b.typeName)
      | a, b => .error (.notComparable relation.sign a.typeName b.typeName)

/-- Does the relation hold?  Values without an order are refused. -/
def related (s : Store) (relation : OrderRelation) (a b : Value) : Except TypeFault Bool :=
  s.relatedWithin relation s.depth a b

end Store

end TextTemplate
