/-
# Where the leading items end

Sorting asks again and again how many of the first items go in front of something.  The items are
sorted, so the question is one for halving; but the answer is often small, so the search first
looks at the places 1, 3, 7, … and halves only between the last two of them.

* `halve` halves between two places;
* `leading` is the number of leading items that satisfy a condition.

A comparison may fail, and it need not be consistent.  Then it matters which items are looked at:
a search of items that are listed from the last to the first looks at the lower of the two middle
places.
-/

namespace TextTemplate.Sorting

variable {α ε : Type}

/-- From which end the items are listed. -/
inductive Direction where
  | forward
  | backward
  deriving DecidableEq, Repr

/-- The place in the middle of those from `low` up to, but without, `high`. -/
def Direction.middle (d : Direction) (low high : Nat) : Nat :=
  match d with
  | .forward => low + (high - low) / 2
  | .backward => high - 1 - (high - low) / 2

/-- Where the items that satisfy the condition end, between two places. -/
def halve (d : Direction) (goes : α → Except ε Bool) (items : List α) (low high : Nat) :
    Except ε Nat :=
  if low < high then
    match items[d.middle low high]? with
    | none => .ok low
    | some x => do
      if (← goes x) then halve d goes items (d.middle low high + 1) high
      else halve d goes items low (d.middle low high)
  else .ok low
termination_by high - low
decreasing_by all_goals cases d <;> simp only [Direction.middle] <;> omega

/-- Two places that the end lies between: the condition holds at `last`, and is tried at `next`
and at places that lie farther and farther behind it. -/
def reach (goes : α → Except ε Bool) (items : List α) (last next : Nat) : Except ε (Nat × Nat) :=
  if next < items.length then
    match items[next]? with
    | none => .ok (last, next)
    | some x => do
      if (← goes x) then reach goes items next (2 * next + 1) else .ok (last, next)
  else .ok (last, items.length)
termination_by items.length - next

/-- The number of leading items that satisfy the condition. -/
def leading (d : Direction) (goes : α → Except ε Bool) (items : List α) : Except ε Nat :=
  match items with
  | [] => .ok 0
  | x :: _ => do
    if (← goes x) then
      let (last, next) ← reach goes items 0 1
      halve d goes items (last + 1) next
    else .ok 0

end TextTemplate.Sorting
