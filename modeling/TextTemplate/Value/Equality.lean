/-
# Equality, keys and truth

Numbers of all types are compared by value, and texts by their characters whether they are safe
or not.  Containers are equal when their parts are; a part is also equal to itself, which matters
for "not a number" alone.

* `Store.equal?` is equality; there is none where it would look for something unhashable;
* `Store.key?` is the canonical key of a value, or the name of the type that has none;
* `Store.truth` says which values count as true.
-/
import TextTemplate.Value.Basic

namespace TextTemplate

open TextTemplate.Decimal

/-! ## 1. Numbers -/

/-- A number of any type. -/
inductive Numeric where
  | integer (n : Int)
  | binary (x : Binary64)
  | undefined
  deriving DecidableEq, Repr

/-- A value as a number.  The truth values are 0 and 1. -/
def Value.numeric? : Value → Option Numeric
  | .bool b => some (.integer b.toNat)
  | .int n => some (.integer n)
  | .float x => some (.binary x)
  | .nan _ => some .undefined
  | _ => .none

/-- The exact order of two numbers; nothing is ordered against "not a number". -/
def Numeric.order? : Numeric → Numeric → Option Ordering
  | .integer m, .integer n => some (compare m n)
  | .integer m, .binary y => some (y.orderInt m).swap
  | .binary x, .integer n => some (x.orderInt n)
  | .binary x, .binary y => some (x.order y)
  | _, _ => none

/-! ## 2. Ranges -/

/-- The number of integers from `start` up to, but without, `stop`. -/
def rangeLength (start stop : Int) : Nat := (stop - start).toNat

/-- The canonical key of a range: where it starts is no part of an empty one. -/
def rangeKey (start stop : Int) : Key :=
  .range (if start < stop then start else 0) (rangeLength start stop)

namespace Store

/-! ## 3. Keys -/

/-- The canonical key of a value, with references followed at most `fuel` deep. -/
def keyWithin (s : Store) : (fuel : Nat) → Value → Except String Key
  | 0, v => .error v.typeName
  | fuel + 1, v =>
    match v with
    | .none => .ok .none
    | .bool b => .ok (.int b.toNat)
    | .int n => .ok (.int n)
    | .float x =>
      match x.toInt? with
      | some n => .ok (.int n)
      | none => .ok (.float x)
    | .nan i => .ok (.nan i)
    | .text t _ => .ok (.text t)
    | .range start stop => .ok (rangeKey start stop)
    | .tuple r => do
      let keys ← (s.tuple r).mapM (keyWithin s fuel)
      .ok (keys.foldr Key.pair Key.unit)
    | .view .values _ i => .ok (.view i)
    | .object r => .ok (.object r)
    | .function _ i => .ok (.function i)
    | .list _ | .dict _ | .view .. => .error v.typeName

/-- The canonical key of a value, or the name of the type that is no key. -/
def key? (s : Store) (v : Value) : Except String Key := s.keyWithin s.depth v

/-! ## 4. Equality -/

/-- The members of a view that behaves like a set: the keys as they are, the pairs as pairs. -/
inductive ViewMember where
  | single (v : Value)
  | pair (label value : Value)

/-- The members of a view of the keys or of the pairs. -/
def viewMembers (s : Store) (kind : ViewKind) (r : Ref) : List ViewMember :=
  (s.dict r).map fun e =>
    match kind with
    | .pairs => .pair e.label e.value
    | _ => .single e.label

/-- A value as a member: a tuple of two is a pair. -/
def memberOf (s : Store) (v : Value) : ViewMember :=
  match v with
  | .tuple r =>
    match s.tuple r with
    | [label, value] => .pair label value
    | _ => .single v
  | v => .single v

/-- Is the member in the view?  `same` compares the parts of containers. -/
def viewContains (s : Store) (same : Value → Value → Option Bool) (kind : ViewKind) (r : Ref)
    (m : ViewMember) : Option Bool :=
  match kind, m with
  | .pairs, .single _ => some false
  | .pairs, .pair label value => do
    let key ← (s.key? label).toOption
    match (s.dict r).find? key with
    | some found => same found value
    | none => some false
  | _, .single v => do
    let key ← (s.key? v).toOption
    some ((s.dict r).find? key).isSome
  | _, .pair label value => do
    let first ← (s.key? label).toOption
    let second ← (s.key? value).toOption
    some ((s.dict r).find? (.pair first (.pair second .unit))).isSome

/-- Are all members of one view in another? -/
def viewWithin (s : Store) (same : Value → Value → Option Bool) (kind : ViewKind) (r : Ref)
    (kind' : ViewKind) (r' : Ref) : Option Bool :=
  (s.viewMembers kind r).allM (s.viewContains same kind' r')

/-- Does the view behave like a set? -/
def isSetLike : ViewKind → Bool
  | .values => false
  | _ => true

/-- Equality, with references followed at most `fuel` deep. -/
def equalWithin (s : Store) : (fuel : Nat) → Value → Value → Option Bool
  | 0, _, _ => some false
  | fuel + 1, a, b =>
    let same (x y : Value) : Option Bool := if x = y then some true else equalWithin s fuel x y
    let sameItems (xs ys : List Value) : Option Bool :=
      if xs.length = ys.length then (xs.zip ys).allM fun p => same p.1 p.2 else some false
    match a.numeric?, b.numeric? with
    | some x, some y => some (x.order? y == some .eq)
    | _, _ =>
      match a, b with
      | .text t _, .text u _ => some (t == u)
      | .range a b, .range c d => some (rangeKey a b == rangeKey c d)
      | .list r, .list r' => sameItems (s.list r) (s.list r')
      | .tuple r, .tuple r' => sameItems (s.tuple r) (s.tuple r')
      | .dict r, .dict r' =>
        if (s.dict r).length = (s.dict r').length then
          (s.dict r).allM fun e =>
            match (s.dict r').find? e.key with
            | some v => same e.value v
            | none => some false
        else some false
      | .view kind r i, .view kind' r' j =>
        if isSetLike kind && isSetLike kind' then
          if (s.dict r).length = (s.dict r').length then s.viewWithin same kind r kind' r'
          else some false
        else some (i == j)
      | a, b => some (a == b)

/-- Are two values equal?  There is no answer where a view is asked for something unhashable. -/
def equal? (s : Store) (a b : Value) : Option Bool := s.equalWithin s.depth a b

/-- Are two values the same or equal? -/
def same? (s : Store) (a b : Value) : Option Bool := if a = b then some true else s.equal? a b

/-! ## 5. Truth -/

/-- Does a value count as true?  Zeros and empty containers do not. -/
def truth (s : Store) : Value → Bool
  | .none => false
  | .bool b => b
  | .int n => n ≠ 0
  | .float x => !x.isZero
  | .nan _ => true
  | .text t _ => t ≠ ""
  | .range start stop => start < stop
  | .list r => !(s.list r).isEmpty
  | .tuple r => !(s.tuple r).isEmpty
  | .dict r | .view _ r _ => !(s.dict r).isEmpty
  | .object _ | .function .. => true

end Store
end TextTemplate
