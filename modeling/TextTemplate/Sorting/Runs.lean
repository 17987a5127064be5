/-
# Sorting by runs

A sequence is sorted in place and stably.  It is read from the beginning as a row of **runs**:
items that are in order already, or all in falling order, which is then turned round.  A run that
is too short is made longer by inserting the items behind it one by one.  Neighbouring runs are
merged as the runs come; which ones, and when, is decided by the **power** of the place between
them: how deep it lies in a tree that halves the whole sequence.

* `nextRun` reads one run;
* `Sorter` holds the runs that wait to be merged, `Sorter.push` takes in a new one and
  `Sorter.collapse` merges all;
* `sortItems` sorts a sequence.  Where two items have no order, it stops half way.
-/
import TextTemplate.Decimal.Power
import TextTemplate.Sorting.Merge

namespace TextTemplate.Sorting

open TextTemplate.Decimal

variable {α ε : Type}

/-! ## 1. Runs -/

/-- The number of items that go on with a run whose last item is `last`: each less than the one
before it in a falling run, none in a rising one. -/
def runLength (less : α → α → Except ε Bool) (falling : Bool) (last : α) :
    List α → Except ε Nat
  | [] => .ok 0
  | x :: xs => do
    if (← less x last) = falling then (runLength less falling x xs).map (· + 1) else .ok 0

/-- The number of items that form a run with the one in front of them, and whether it falls. -/
def firstRun (less : α → α → Except ε Bool) (first : α) : List α → Except ε (Nat × Bool)
  | [] => .ok (0, false)
  | x :: xs => do
    let falling ← less x first
    let n ← runLength less falling x xs
    .ok (n + 1, falling)

/-- Insert items one by one into sorted ones, each in front of the first greater one. -/
def insertAll (less : α → α → Except ε Bool) (sorted : List α) : List α → List α × Option ε
  | [] => (sorted, none)
  | x :: xs =>
    match halve .forward (fun y => (! ·) <$> less x y) sorted 0 sorted.length with
    | .error e => (sorted ++ x :: xs, some e)
    | .ok i => insertAll less (sorted.take i ++ x :: sorted.drop i) xs

/-- The run at the beginning of a sequence, the items behind it, and the failure of a comparison,
if one failed: then the run holds the items as they are. -/
structure NextRun (α ε : Type) where
  run : List α
  behind : List α
  failure : Option ε

/-- Read one run.  It has at least `shortest` items, if there are as many. -/
def nextRun (less : α → α → Except ε Bool) (shortest : Nat) (first : α) (items : List α) :
    NextRun α ε :=
  match firstRun less first items with
  | .error e => ⟨first :: items, [], some e⟩
  | .ok (n, falling) =>
    let run := first :: items.take n
    let behind := items.drop n
    let missing := shortest - (n + 1)
    let run := if falling then run.reverse else run
    let (run, failure) := insertAll less run (behind.take missing)
    ⟨run, behind.drop missing, failure⟩

theorem length_behind_nextRun_le (less : α → α → Except ε Bool) (shortest : Nat) (first : α)
    (items : List α) : (nextRun less shortest first items).behind.length ≤ items.length := by
  unfold nextRun
  split
  · exact Nat.zero_le _
  · simp only [List.length_drop]
    omega

/-! ## 2. Sizes -/

/-- Sequences shorter than this are a single run. -/
def shortSequence : Nat := 64

/-- The number of items that every run should have, for a sequence of `n` items: the first binary
digits of `n`, and one more if the other digits are not all zero.  Then the number of runs is a
power of two, or a little less. -/
def shortestRun (others : Bool) (n : Nat) : Nat :=
  if n < shortSequence then n + others.toNat
  else shortestRun (others || n % 2 = 1) (n / 2)
termination_by n
decreasing_by
  have : shortSequence = 64 := rfl
  omega

/-- The power of the place between two neighbouring runs in a sequence: the first binary digit in
which the places of their middles differ. -/
def placePower (start size size' total : Nat) : Nat :=
  let middle := 2 * start + size
  let middle' := middle + size + size'
  let differs (digit : Nat) : Bool :=
    middle * twoTo digit / total ≠ middle' * twoTo digit / total
  ((List.range (total.log2 + 2)).find? differs).getD 0

/-! ## 3. Runs that wait -/

/-- A run that waits to be merged: its items, their number, where it starts, and the power of the
place behind it. -/
structure Waiting (α : Type) where
  items : List α
  size : Nat
  start : Nat
  power : Nat

/-- The runs that wait, the last one first, the patience for the next merge, and the failure of a
comparison, if one failed. -/
structure Sorter (α ε : Type) where
  runs : List (Waiting α)
  patience : Nat
  failure : Option ε

namespace Sorter

/-- A sorter that has seen nothing. -/
def empty : Sorter α ε := ⟨[], groupSize, none⟩

/-- All items in order. -/
def items (s : Sorter α ε) : List α := (s.runs.reverse.map (·.items)).flatten

/-- Merge two neighbours: the run that they become, and how the merge went. -/
def join (less : α → α → Except ε Bool) (patience : Nat) (left right : Waiting α) :
    Waiting α × Nat × Option ε :=
  let merged := mergeNeighbours less patience left.items right.items
  (⟨merged.items, left.size + right.size, left.start, right.power⟩, merged.patience, merged.failure)

/-- Merge the last runs, as long as the place in front of the last one has a greater power. -/
def mergeAbove (less : α → α → Except ε Bool) (power : Nat) :
    (runs : List (Waiting α)) → (patience : Nat) → Sorter α ε
  | last :: before :: rest, patience =>
    if power < before.power then
      let (run, patience, failure) := join less patience before last
      match failure with
      | some e => ⟨run :: rest, patience, some e⟩
      | none => mergeAbove less power (run :: rest) patience
    else ⟨last :: before :: rest, patience, none⟩
  | runs, patience => ⟨runs, patience, none⟩
termination_by runs => runs.length

/-- Set the power of the place behind the last run. -/
def withPower (power : Nat) : List (Waiting α) → List (Waiting α)
  | [] => []
  | last :: rest => { last with power := power } :: rest

/-- Take in a new run, in a sequence of `total` items. -/
def push (less : α → α → Except ε Bool) (total : Nat) (s : Sorter α ε) (run : List α) :
    Sorter α ε :=
  match s.runs with
  | [] => { s with runs := [⟨run, run.length, 0, 0⟩] }
  | last :: _ =>
    let power := placePower last.start last.size run.length total
    let merged := mergeAbove less power s.runs s.patience
    let waiting := ⟨run, run.length, last.start + last.size, 0⟩
    { merged with runs := waiting :: withPower power merged.runs }

/-- Merge all runs, from the end of the sequence.  The run before the last two goes first if it is
shorter than the last. -/
def collapse (less : α → α → Except ε Bool) :
    (runs : List (Waiting α)) → (patience : Nat) → Sorter α ε
  | last :: before :: far :: rest, patience =>
    if far.size < last.size then
      let (run, patience, failure) := join less patience far before
      match failure with
      | some e => ⟨last :: run :: rest, patience, some e⟩
      | none => collapse less (last :: run :: rest) patience
    else
      let (run, patience, failure) := join less patience before last
      match failure with
      | some e => ⟨run :: far :: rest, patience, some e⟩
      | none => collapse less (run :: far :: rest) patience
  | [last, before], patience =>
    let (run, patience, failure) := join less patience before last
    ⟨[run], patience, failure⟩
  | runs, patience => ⟨runs, patience, none⟩
termination_by runs => runs.length

end Sorter

/-! ## 4. Sorting -/

/-- Sort the items behind the runs that wait. -/
def sortFrom (less : α → α → Except ε Bool) (total shortest : Nat) (s : Sorter α ε) :
    List α → List α × Option ε
  | [] =>
    let sorted := Sorter.collapse less s.runs s.patience
    (sorted.items, sorted.failure)
  | x :: xs =>
    let next := nextRun less shortest x xs
    match next.failure with
    | some e => (s.items ++ next.run ++ next.behind, some e)
    | none =>
      let s := s.push less total next.run
      match s.failure with
      | some e => (s.items ++ next.behind, some e)
      | none => sortFrom less total shortest s next.behind
termination_by items => items.length
decreasing_by exact Nat.lt_succ_of_le (length_behind_nextRun_le less shortest x xs)

/-- Sort items.  Where two items have no order, the error comes with the items as far as they were
sorted. -/
def sortItems (less : α → α → Except ε Bool) (items : List α) : List α × Option ε :=
  let total := items.length
  sortFrom less total (shortestRun false total) Sorter.empty items

end TextTemplate.Sorting
