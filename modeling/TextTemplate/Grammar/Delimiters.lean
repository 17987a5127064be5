/-
# Delimiters

Each of the three kinds of marker stands between an opening and a closing delimiter.  The
delimiters can be chosen freely, but no opening one may begin with that of another kind: so at
every position of every text at most one kind of marker opens.

* `Delimiters` is the type, with this condition as part of it, and `Delimiters.standard` the usual
  choice;
* `Delimiters.overlap?` finds a pair of kinds that breaks the condition;
* `Delimiters.ofValue` checks a value that is given as a choice of delimiters.
-/
import TextTemplate.Value.Call

namespace TextTemplate

open TextTemplate.Text

/-! ## 1. Kinds of markers -/

/-- The kinds of markers. -/
inductive MarkerKind where
  | statement
  | expression
  | comment
  deriving DecidableEq, Repr

namespace MarkerKind

/-- The name of a kind. -/
def name : MarkerKind → String
  | statement => "statement"
  | expression => "expression"
  | comment => "comment"

/-- All kinds. -/
def all : List MarkerKind := [statement, expression, comment]

/-- All pairs of different kinds. -/
def pairs : List (MarkerKind × MarkerKind) :=
  all.flatMap fun k => (all.filter (· ≠ k)).map (k, ·)

theorem mem_all (k : MarkerKind) : k ∈ all := by cases k <;> decide

theorem mem_pairs {k k' : MarkerKind} (h : k ≠ k') : (k, k') ∈ pairs := by
  cases k <;> cases k' <;> first | decide | exact absurd rfl h

end MarkerKind

/-! ## 2. The type -/

/-- A choice of delimiters. -/
structure Delimiters where
  opener : MarkerKind → List Char
  closer : MarkerKind → List Char
  opener_ne_nil : ∀ k, opener k ≠ []
  closer_ne_nil : ∀ k, closer k ≠ []
  separate : ∀ k k', k ≠ k' → (opener k).isPrefixOf (opener k') = false

namespace Delimiters

/-- The usual delimiters. -/
def standard : Delimiters where
  opener
    | .statement => ['\x7b', '%']
    | .expression => ['\x7b', '\x7b']
    | .comment => ['\x7b', '#']
  closer
    | .statement => ['%', '\x7d']
    | .expression => ['\x7d', '\x7d']
    | .comment => ['#', '\x7d']
  opener_ne_nil k := by cases k <;> simp
  closer_ne_nil k := by cases k <;> simp
  separate k k' h := by cases k <;> cases k' <;> first | rfl | exact absurd rfl h

/-- The delimiters of a kind, in quotes. -/
def writtenPair (d : Delimiters) (k : MarkerKind) : String :=
  tupleText [quoted (String.ofList (d.opener k)), quoted (String.ofList (d.closer k))]

/-- The delimiters of all kinds. -/
def written (d : Delimiters) : String :=
  "\x7b" ++ commaSeparated (MarkerKind.all.map fun k => quoted k.name ++ ": " ++ d.writtenPair k) ++
    "\x7d"

/-! ## 3. Checking a choice -/

/-- Two kinds of which the second's opening delimiter begins with the first's. -/
def overlap? (opener : MarkerKind → List Char) : Option (MarkerKind × MarkerKind) :=
  MarkerKind.pairs.find? fun p => (opener p.1).isPrefixOf (opener p.2)

theorem separate_of_overlap? {opener : MarkerKind → List Char} (h : overlap? opener = none)
    (k k' : MarkerKind) (hk : k ≠ k') : (opener k).isPrefixOf (opener k') = false :=
  Bool.eq_false_iff.mpr (List.find?_eq_none.mp h _ (MarkerKind.mem_pairs hk))

/-- A text that is not empty. -/
def nonempty? (v : Value) : Option { cs : List Char // cs ≠ [] } :=
  match v with
  | .text t _ => if h : t.toList ≠ [] then some ⟨t.toList, h⟩ else none
  | _ => none

/-- An opening and a closing delimiter. -/
abbrev Pair := { cs : List Char // cs ≠ [] } × { cs : List Char // cs ≠ [] }

/-- A value as an opening and a closing delimiter: a list or a tuple of two texts. -/
def pair? (s : Store) (v : Value) : Option Pair :=
  let items := match v with
    | .list r => s.list r
    | .tuple r => s.tuple r
    | _ => []
  match items with
  | [a, b] => do
    let opener ← nonempty? a
    let closer ← nonempty? b
    some (opener, closer)
  | _ => none

/-- A choice by a pair for each kind, unless two kinds overlap. -/
def ofPairs (pair : MarkerKind → Pair) : Except Cause Delimiters :=
  let opener k := (pair k).1.val
  match h : overlap? opener with
  | some (k, k') =>
    .error (.configuration (.delimiterOverlap k.name (String.ofList (opener k)) k'.name
      (String.ofList (opener k'))))
  | none =>
    .ok ⟨opener, fun k => (pair k).2.val, fun k => (pair k).1.property,
      fun k => (pair k).2.property, separate_of_overlap? h⟩

/-- The names of the kinds for which delimiters are given, sorted. -/
def sortedNames (given : List Value) : Eval (List String) := do
  let (sorted, fault) := Sorting.sortItems ((← get).related .less) given
  match fault with
  | some fault => Eval.fail (.type fault)
  | none =>
    (sorted.zipIdx).mapM fun (v, i) =>
      match v with
      | .text t _ => pure t
      | v => Eval.fail (.type (.notText i v.typeName))

/-- The items of a value as keys.  An item that is no key is met before a failure behind it. -/
def givenKeys (v : Value) : Eval (List Key) := do
  match ← Eval.stream? v with
  | none => Eval.fail (.type (.notIterable v.typeName))
  | some st => do
    let keys ← st.items.mapM fun key => Eval.read fun s => (s.key? key).mapError fun type =>
      .type (.unhashable type)
    match st.failure with
    | none => pure keys
    | some cause => Eval.fail cause

/-- Check that delimiters are given for exactly the three kinds. -/
def checkKinds (v : Value) : Eval Unit := do
  let keys ← givenKeys v
  let wanted := MarkerKind.all.map fun k => Key.text k.name
  if keys.all (wanted.contains ·) && wanted.all (keys.contains ·) then pure ()
  else do Eval.fail (.configuration (.delimiterKinds (← sortedNames (← Eval.items v))))

/-- The pair that is given for a kind. -/
def givenPair (v : Value) (k : MarkerKind) : Eval Pair := do
  let given ← Eval.read (·.item v (.plain k.name))
  match pair? (← get) given with
  | some pair => pure pair
  | none =>
    match (← get).written? given with
    | some written => Eval.fail (.configuration (.delimiterPair k.name written))
    | none => Eval.fail (.value .integerTextTooLong)

/-- Check a value that is given as a choice of delimiters. -/
def ofValue (v : Value) : Eval Delimiters := do
  checkKinds v
  let statement ← givenPair v .statement
  let expression ← givenPair v .expression
  let comment ← givenPair v .comment
  Eval.read fun _ => ofPairs fun
    | .statement => statement
    | .expression => expression
    | .comment => comment

end Delimiters
end TextTemplate
