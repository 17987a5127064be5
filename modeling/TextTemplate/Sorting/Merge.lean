/-
# Merging two sorted runs

Two neighbouring runs become one.  The items that are in place already, at the beginning of the
first run and at the end of the second, are left alone.  The rest is merged from the front, or
from the back if the second run is the shorter one.

A merge takes the items one by one, as long as the runs take turns.  When one of them wins as
often in a row as the **patience** allows, whole groups are searched for and taken at once, until
the groups are small again.  Patience grows and shrinks with that from merge to merge.

* `Merge` is a merge under way, seen from the end where it began;
* `Merge.run` carries it out;
* `mergeNeighbours` merges two runs.

Where a comparison fails the items stay in the order that they had reached.
-/
import TextTemplate.Sorting.Search

namespace TextTemplate.Sorting

variable {α ε : Type}

/-! ## 1. A merge under way -/

/-- A merge under way: the items in their places, the latest first, and what is left of both runs.
The last item of the kept run needs no comparison: it comes behind the whole other run. -/
structure Merge (α : Type) where
  placed : List α
  kept : List α
  other : List α

namespace Merge

/-- Is there something left to compare? -/
def isOpen (m : Merge α) : Bool :=
  match m.kept, m.other with
  | _ :: _ :: _, _ :: _ => true
  | _, _ => false

/-- Put the first items of the kept run into their places. -/
def takeKept (m : Merge α) (n : Nat) : Merge α :=
  ⟨(m.kept.take n).reverse ++ m.placed, m.kept.drop n, m.other⟩

/-- Put the first items of the other run into their places. -/
def takeOther (m : Merge α) (n : Nat) : Merge α :=
  ⟨(m.other.take n).reverse ++ m.placed, m.kept, m.other.drop n⟩

/-- The items when there is nothing left to compare. -/
def finished (m : Merge α) : List α := m.placed.reverse ++ m.other ++ m.kept

/-- The items as they are when a comparison fails. -/
def interrupted (m : Merge α) : List α := m.placed.reverse ++ m.kept ++ m.other

/-- The number of items that have no place yet. -/
def remaining (m : Merge α) : Nat := m.kept.length + m.other.length

theorem remaining_takeKept_le (m : Merge α) (n : Nat) : (m.takeKept n).remaining ≤ m.remaining := by
  simp only [remaining, takeKept, List.length_drop]
  omega

theorem remaining_takeOther_le (m : Merge α) (n : Nat) :
    (m.takeOther n).remaining ≤ m.remaining := by
  simp only [remaining, takeOther, List.length_drop]
  omega

theorem length_pos_of_isOpen {m : Merge α} (h : m.isOpen = true) :
    0 < m.kept.length ∧ 0 < m.other.length := by
  obtain ⟨placed, kept, other⟩ := m
  match kept, other with
  | [], _ => simp [isOpen] at h
  | [_], _ => simp [isOpen] at h
  | _ :: _ :: _, [] => simp [isOpen] at h
  | _ :: _ :: _, _ :: _ => simp

theorem remaining_takeKept_lt {m : Merge α} (h : m.isOpen = true) :
    (m.takeKept 1).remaining < m.remaining := by
  have := length_pos_of_isOpen h
  simp only [remaining, takeKept, List.length_drop]
  omega

theorem remaining_takeOther_lt {m : Merge α} (h : m.isOpen = true) :
    (m.takeOther 1).remaining < m.remaining := by
  have := length_pos_of_isOpen h
  simp only [remaining, takeOther, List.length_drop]
  omega

end Merge

/-! ## 2. Taking groups -/

/-- What comes of an attempt to take a group: the merge goes on and `n` items were taken, there is
nothing left to compare, or a comparison failed. -/
inductive Advance (α ε : Type) where
  | goesOn (n : Nat) (m : Merge α)
  | closes (m : Merge α)
  | fails (cause : ε) (m : Merge α)

/-- How a merge is decided: the end at which it begins, and `wins x y`, which says that `y` of the
other run comes before `x` of the kept run. -/
structure Contest (α ε : Type) where
  direction : Direction
  wins : α → α → Except ε Bool

namespace Contest

/-- Go on with a merge, if there is something left to compare. -/
def goOn (n : Nat) (m : Merge α) : Advance α ε := if m.isOpen then .goesOn n m else .closes m

/-- Take the group of the kept run that comes before the next item of the other run, and then
that item. -/
def takeKeptGroup (c : Contest α ε) (m : Merge α) : Advance α ε :=
  match m.other with
  | [] => .closes m
  | y :: _ =>
    match leading c.direction (fun x => (! ·) <$> c.wins x y) m.kept with
    | .error e => .fails e m
    | .ok n =>
      if (m.takeKept n).isOpen then goOn n ((m.takeKept n).takeOther 1)
      else .closes (m.takeKept n)

/-- Take the group of the other run that comes before the next item of the kept run, and then
that item. -/
def takeOtherGroup (c : Contest α ε) (m : Merge α) : Advance α ε :=
  match m.kept with
  | [] => .closes m
  | x :: _ =>
    match leading c.direction (fun y => c.wins x y) m.other with
    | .error e => .fails e m
    | .ok n =>
      if (m.takeOther n).isOpen then goOn n ((m.takeOther n).takeKept 1)
      else .closes (m.takeOther n)

/-- Two groups in turn.  The group of the run that lies in front is the first one. -/
def takeGroups (c : Contest α ε) (m : Merge α) : Advance α ε :=
  let first := match c.direction with
    | .forward => c.takeKeptGroup m
    | .backward => c.takeOtherGroup m
  match first with
  | .goesOn n m =>
    let second := match c.direction with
      | .forward => c.takeOtherGroup m
      | .backward => c.takeKeptGroup m
    match second with
    | .goesOn n' m => .goesOn (max n n') m
    | stop => stop
  | stop => stop

theorem eq_of_goOn {n k : Nat} {m m' : Merge α}
    (h : (goOn n m : Advance α ε) = .goesOn k m') : m' = m := by
  unfold goOn at h
  split at h
  · injection h with _ h
    exact h.symm
  · cases h

theorem remaining_takeKeptGroup {c : Contest α ε} {n : Nat} {m m' : Merge α}
    (h : c.takeKeptGroup m = .goesOn n m') : m'.remaining < m.remaining := by
  unfold takeKeptGroup at h
  split at h
  · cases h
  · split at h
    · cases h
    · rename_i k _
      split at h
      · rename_i ho
        rw [eq_of_goOn h]
        exact Nat.lt_of_lt_of_le (Merge.remaining_takeOther_lt ho) (m.remaining_takeKept_le k)
      · cases h

theorem remaining_takeOtherGroup {c : Contest α ε} {n : Nat} {m m' : Merge α}
    (h : c.takeOtherGroup m = .goesOn n m') : m'.remaining < m.remaining := by
  unfold takeOtherGroup at h
  split at h
  · cases h
  · split at h
    · cases h
    · rename_i k _
      split at h
      · rename_i ho
        rw [eq_of_goOn h]
        exact Nat.lt_of_lt_of_le (Merge.remaining_takeKept_lt ho) (m.remaining_takeOther_le k)
      · cases h

/-- **Two groups leave less to be done.** -/
theorem remaining_takeGroups {c : Contest α ε} {n : Nat} {m m' : Merge α}
    (h : c.takeGroups m = .goesOn n m') : m'.remaining < m.remaining := by
  obtain ⟨d, wins⟩ := c
  cases d <;> simp only [takeGroups] at h <;> split at h
  · rename_i k m₁ h₁
    split at h
    · rename_i h₂
      injection h with _ h
      subst h
      exact Nat.lt_trans (remaining_takeOtherGroup h₂) (remaining_takeKeptGroup h₁)
    · rename_i hs
      exact absurd h (hs _ _)
  · rename_i hs
    exact absurd h (hs _ _)
  · rename_i k m₁ h₁
    split at h
    · rename_i h₂
      injection h with _ h
      subst h
      exact Nat.lt_trans (remaining_takeKeptGroup h₂) (remaining_takeOtherGroup h₁)
    · rename_i hs
      exact absurd h (hs _ _)
  · rename_i hs
    exact absurd h (hs _ _)

end Contest

/-! ## 3. The whole merge -/

/-- The result of a merge: the items, the patience for the next merge, and the failure of a
comparison, if one failed. -/
structure Merged (α ε : Type) where
  items : List α
  patience : Nat
  failure : Option ε

/-- How a merge proceeds: item by item, with the number of times that a run has won in a row and
whether that is the other run, or by groups. -/
inductive Pace where
  | single (streak : Nat) (byOther : Bool)
  | grouped
  deriving DecidableEq, Repr

/-- Groups of this size are worth a search. -/
def groupSize : Nat := 7

/-- The pace after a win. -/
def Pace.afterWin (streak patience : Nat) (byOther : Bool) : Pace :=
  if patience ≤ streak then .grouped else .single streak byOther

/-- Carry out a merge. -/
def Merge.run (c : Contest α ε) (pace : Pace) (patience : Nat) (m : Merge α) : Merged α ε :=
  match pace, m with
  | .single streak byOther, ⟨placed, x :: x' :: xs, y :: ys⟩ =>
    match c.wins x y with
    | .error e => ⟨m.interrupted, patience, some e⟩
    | .ok true =>
      let streak := if byOther then streak + 1 else 1
      Merge.run c (.afterWin streak patience true) patience ⟨y :: placed, x :: x' :: xs, ys⟩
    | .ok false =>
      let streak := if byOther then 1 else streak + 1
      Merge.run c (.afterWin streak patience false) patience ⟨x :: placed, x' :: xs, y :: ys⟩
  | .single .., m => ⟨m.finished, patience, none⟩
  | .grouped, m =>
    if m.isOpen then
      match h : c.takeGroups m with
      | .fails e m => ⟨m.interrupted, patience, some e⟩
      | .closes m => ⟨m.finished, patience, none⟩
      | .goesOn n m' =>
        if groupSize ≤ n then Merge.run c .grouped (max 1 (patience - 1)) m'
        else Merge.run c (.single 0 false) (patience + 1) m'
    else ⟨m.finished, patience, none⟩
termination_by m.remaining
decreasing_by
  · simp only [Merge.remaining, List.length_cons]; omega
  · simp only [Merge.remaining, List.length_cons]; omega
  · exact Contest.remaining_takeGroups h
  · exact Contest.remaining_takeGroups h

/-- Carry out a merge of a kept run and another one, whose first item comes first. -/
def Merge.start (c : Contest α ε) (patience : Nat) (kept other : List α) : Merged α ε :=
  Merge.run c (.single 0 false) patience (Merge.takeOther ⟨[], kept, other⟩ 1)

/-- Merge from the front.  The first item of the second run comes before all of the first run. -/
def mergeForward (less : α → α → Except ε Bool) (patience : Nat) (first second : List α) :
    Merged α ε :=
  Merge.start ⟨.forward, fun x y => less y x⟩ patience first second

/-- Merge from the back.  The last item of the first run comes behind all of the second run. -/
def mergeBackward (less : α → α → Except ε Bool) (patience : Nat) (first second : List α) :
    Merged α ε :=
  let merged := Merge.start ⟨.backward, less⟩ patience second.reverse first.reverse
  { merged with items := merged.items.reverse }

/-! ## 4. Two neighbours -/

/-- The number of leading items of the first run that are in place: those that are not behind the
first item of the second run. -/
def settledBefore (less : α → α → Except ε Bool) (first second : List α) : Except ε Nat :=
  match second with
  | [] => .ok first.length
  | y :: _ => leading .forward (fun x => (! ·) <$> less y x) first

/-- The number of last items of the second run that are in place: those that are not before the
last item of the first run. -/
def settledBehind (less : α → α → Except ε Bool) (first second : List α) : Except ε Nat :=
  match first.getLast? with
  | none => .ok second.length
  | some x => leading .backward (fun y => (! ·) <$> less y x) second.reverse

/-- The parts of two runs that have to be merged, between those that are in place. -/
def unsettled (less : α → α → Except ε Bool) (first second : List α) :
    Except ε (List α × List α × List α × List α) := do
  let before ← settledBefore less first second
  let moving := first.drop before
  let behind ← settledBehind less moving second
  let split := second.length - behind
  .ok (first.take before, moving, second.take split, second.drop split)

/-- Merge two neighbouring runs. -/
def mergeNeighbours (less : α → α → Except ε Bool) (patience : Nat) (first second : List α) :
    Merged α ε :=
  match unsettled less first second with
  | .error e => ⟨first ++ second, patience, some e⟩
  | .ok (before, moving, moving', behind) =>
    if moving.isEmpty || moving'.isEmpty then ⟨first ++ second, patience, none⟩
    else
      let merged :=
        if moving.length ≤ moving'.length then mergeForward less patience moving moving'
        else mergeBackward less patience moving moving'
      { merged with items := before ++ merged.items ++ behind }

end TextTemplate.Sorting
