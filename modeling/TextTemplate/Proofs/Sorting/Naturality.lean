/-
# Sorting looks at nothing but comparisons

Rename the items that are sorted, and let the renamed items compare as the items do: then sorting
gives the renamed items in the same order, or stops at the same comparison with the renamed items
as far as they were sorted (`sortItems_map`).

Every part of sorting has this property, and each lemma says it of one of them: searching, merging
item by item and group by group, reading runs, and the runs that wait.
-/
import TextTemplate.Proofs.Sorting.Permutation

namespace TextTemplate.Sorting

variable {α β ε : Type} {g : α → β}

/-! ## 1. Searching -/

section Search

variable {goes : α → Except ε Bool} {goes' : β → Except ε Bool}

theorem halve_map (hg : ∀ x, goes' (g x) = goes x) (d : Direction) (items : List α)
    (low high : Nat) : halve d goes' (items.map g) low high = halve d goes items low high := by
  fun_induction halve d goes items low high with
  | case1 low high h hnone =>
    conv => lhs; unfold halve
    rw [if_pos h, List.getElem?_map, hnone]
    rfl
  | case2 low high h x hx ihtrue ihfalse =>
    conv => lhs; unfold halve
    rw [if_pos h, List.getElem?_map, hx]
    simp only [Option.map_some, hg, ihtrue, ihfalse]
  | case3 low high h =>
    conv => lhs; unfold halve
    rw [if_neg h]

theorem reach_map (hg : ∀ x, goes' (g x) = goes x) (items : List α) (last next : Nat) :
    reach goes' (items.map g) last next = reach goes items last next := by
  fun_induction reach goes items last next with
  | case1 last next h hnone =>
    conv => lhs; unfold reach
    rw [List.length_map, if_pos h, List.getElem?_map, hnone]
    rfl
  | case2 last next h x hx ih =>
    conv => lhs; unfold reach
    rw [List.length_map, if_pos h, List.getElem?_map, hx]
    simp only [Option.map_some, hg, ih]
  | case3 last next h =>
    conv => lhs; unfold reach
    rw [List.length_map, if_neg h]

theorem leading_map (hg : ∀ x, goes' (g x) = goes x) (d : Direction) (items : List α) :
    leading d goes' (items.map g) = leading d goes items := by
  cases items with
  | nil => rfl
  | cons x xs =>
    have hreach := reach_map hg (x :: xs) 0 1
    have hhalve := halve_map hg d (x :: xs)
    rw [List.map_cons] at hreach hhalve ⊢
    unfold leading
    simp only [hg, hreach, hhalve]

end Search

/-! ## 2. Merging -/

/-- A merge of renamed items. -/
def Merge.map (g : α → β) (m : Merge α) : Merge β :=
  ⟨m.placed.map g, m.kept.map g, m.other.map g⟩

/-- An attempt to take a group of renamed items. -/
def Advance.map (g : α → β) : Advance α ε → Advance β ε
  | .goesOn n m => .goesOn n (m.map g)
  | .closes m => .closes (m.map g)
  | .fails cause m => .fails cause (m.map g)

/-- The result of a merge of renamed items. -/
def Merged.map (g : α → β) (m : Merged α ε) : Merged β ε := { m with items := m.items.map g }

namespace Merge

variable (m : Merge α)

@[simp] theorem isOpen_map : (m.map g).isOpen = m.isOpen := by
  obtain ⟨placed, kept, other⟩ := m
  match kept, other with
  | [], _ => rfl
  | [_], _ => rfl
  | _ :: _ :: _, [] => rfl
  | _ :: _ :: _, _ :: _ => rfl

@[simp] theorem takeKept_map (n : Nat) : (m.map g).takeKept n = (m.takeKept n).map g := by
  simp [takeKept, map]

@[simp] theorem takeOther_map (n : Nat) : (m.map g).takeOther n = (m.takeOther n).map g := by
  simp [takeOther, map]

@[simp] theorem finished_map : (m.map g).finished = m.finished.map g := by
  simp [finished, map]

@[simp] theorem interrupted_map : (m.map g).interrupted = m.interrupted.map g := by
  simp [interrupted, map]

end Merge

namespace Contest

variable {d : Direction} {wins : α → α → Except ε Bool} {wins' : β → β → Except ε Bool}

theorem goOn_map (n : Nat) (m : Merge α) :
    (goOn n (m.map g) : Advance β ε) = (goOn n m : Advance α ε).map g := by
  unfold goOn
  rw [Merge.isOpen_map]
  split <;> rfl

theorem takeKeptGroup_map (hw : ∀ x y, wins' (g x) (g y) = wins x y) (m : Merge α) :
    takeKeptGroup ⟨d, wins'⟩ (m.map g) = (takeKeptGroup ⟨d, wins⟩ m).map g := by
  unfold takeKeptGroup
  have hother : (m.map g).other = m.other.map g := rfl
  rw [hother]
  cases m.other with
  | nil => rfl
  | cons y ys =>
    have hlead : leading d (fun x => (! ·) <$> wins' x (g y)) (m.map g).kept =
        leading d (fun x => (! ·) <$> wins x y) m.kept :=
      leading_map (g := g) (fun x => by rw [hw]) d m.kept
    rw [List.map_cons]
    dsimp only
    rw [hlead]
    split
    · rfl
    · rw [Merge.takeKept_map, Merge.isOpen_map, Merge.takeOther_map, goOn_map]
      split <;> rfl

theorem takeOtherGroup_map (hw : ∀ x y, wins' (g x) (g y) = wins x y) (m : Merge α) :
    takeOtherGroup ⟨d, wins'⟩ (m.map g) = (takeOtherGroup ⟨d, wins⟩ m).map g := by
  unfold takeOtherGroup
  have hkept : (m.map g).kept = m.kept.map g := rfl
  rw [hkept]
  cases m.kept with
  | nil => rfl
  | cons x xs =>
    have hlead : leading d (fun y => wins' (g x) y) (m.map g).other =
        leading d (fun y => wins x y) m.other := leading_map (hw x) d m.other
    rw [List.map_cons]
    dsimp only
    rw [hlead]
    split
    · rfl
    · rw [Merge.takeOther_map, Merge.isOpen_map, Merge.takeKept_map, goOn_map]
      split <;> rfl

/-- What follows a group of renamed items. -/
theorem thenGroup_map {first : Advance α ε} {second : Merge α → Advance α ε}
    {second' : Merge β → Advance β ε} (h : ∀ m, second' (m.map g) = (second m).map g) :
    (match first.map g with
      | .goesOn n m => match second' m with
        | .goesOn n' m => Advance.goesOn (max n n') m
        | stop => stop
      | stop => stop) =
    Advance.map g (match first with
      | .goesOn n m => match second m with
        | .goesOn n' m => .goesOn (max n n') m
        | stop => stop
      | stop => stop) := by
  cases first with
  | goesOn n m =>
    dsimp only [Advance.map]
    rw [h]
    cases second m <;> rfl
  | closes m => rfl
  | fails cause m => rfl

theorem takeGroups_map (hw : ∀ x y, wins' (g x) (g y) = wins x y) (m : Merge α) :
    takeGroups ⟨d, wins'⟩ (m.map g) = (takeGroups ⟨d, wins⟩ m).map g := by
  cases d with
  | forward =>
    unfold takeGroups
    dsimp only
    rw [takeKeptGroup_map hw]
    exact thenGroup_map (takeOtherGroup_map hw)
  | backward =>
    unfold takeGroups
    dsimp only
    rw [takeOtherGroup_map hw]
    exact thenGroup_map (takeKeptGroup_map hw)

end Contest

/-- The rest of a merge that goes on with groups. -/
theorem Merge.run_grouped (c : Contest α ε) (patience : Nat) (m : Merge α) (h : m.isOpen = true) :
    Merge.run c .grouped patience m = match c.takeGroups m with
      | .fails e m => ⟨m.interrupted, patience, some e⟩
      | .closes m => ⟨m.finished, patience, none⟩
      | .goesOn n m' =>
        if groupSize ≤ n then Merge.run c .grouped (max 1 (patience - 1)) m'
        else Merge.run c (.single 0 false) (patience + 1) m' := by
  conv => lhs; unfold Merge.run
  rw [if_pos h]
  split <;> rename_i hg <;> rw [hg]

/-- A merge with nothing left to compare. -/
theorem Merge.run_closed (c : Contest α ε) (pace : Pace) (patience : Nat) (m : Merge α)
    (h : ¬ m.isOpen = true) : Merge.run c pace patience m = ⟨m.finished, patience, none⟩ := by
  cases pace with
  | grouped =>
    unfold Merge.run
    rw [if_neg h]
  | single streak byOther =>
    obtain ⟨placed, kept, other⟩ := m
    match kept, other with
    | [], _ => unfold Merge.run; rfl
    | [_], _ => unfold Merge.run; rfl
    | _ :: _ :: _, [] => unfold Merge.run; rfl
    | _ :: _ :: _, _ :: _ => exact absurd rfl h

theorem Merged.finished_map (patience : Nat) (m : Merge α) :
    (⟨(m.map g).finished, patience, none⟩ : Merged β ε) =
      Merged.map g ⟨m.finished, patience, none⟩ := by
  rw [Merge.finished_map]
  rfl

theorem Merged.interrupted_map (patience : Nat) (e : ε) (m : Merge α) :
    (⟨(m.map g).interrupted, patience, some e⟩ : Merged β ε) =
      Merged.map g ⟨m.interrupted, patience, some e⟩ := by
  rw [Merge.interrupted_map]
  rfl

section Merging

variable {less : α → α → Except ε Bool} {less' : β → β → Except ε Bool}

/-- **Merging renamed items.** -/
theorem Merge.run_map (hw : ∀ x y, less' (g x) (g y) = less x y) (d : Direction) (pace : Pace)
    (patience : Nat) (m : Merge α) :
    Merge.run ⟨d, less'⟩ pace patience (m.map g) = (Merge.run ⟨d, less⟩ pace patience m).map g := by
  fun_induction Merge.run ⟨d, less⟩ pace patience m with
  | case1 patience streak byOther placed x x' xs y ys e h =>
    change less x y = .error e at h
    conv => lhs; unfold Merge.run
    simp only [Merge.map, List.map_cons, hw]
    rw [h]
    exact Merged.interrupted_map patience e ⟨placed, x :: x' :: xs, y :: ys⟩
  | case2 patience streak byOther placed x x' xs y ys h streak' ih =>
    change less x y = .ok true at h
    conv => lhs; unfold Merge.run
    simp only [Merge.map, List.map_cons, hw]
    rw [h]
    exact ih
  | case3 patience streak byOther placed x x' xs y ys h streak' ih =>
    change less x y = .ok false at h
    conv => lhs; unfold Merge.run
    simp only [Merge.map, List.map_cons, hw]
    rw [h]
    exact ih
  | case4 patience streak byOther m hm =>
    have hclosed : ¬ m.isOpen = true := by
      obtain ⟨placed, kept, other⟩ := m
      rcases kept with _ | ⟨x, _ | ⟨x', xs⟩⟩
      · exact Bool.false_ne_true
      · exact Bool.false_ne_true
      · rcases other with _ | ⟨y, ys⟩
        · exact Bool.false_ne_true
        · exact (hm _ _ _ _ _ _ rfl).elim
    rw [run_closed _ _ _ _ (isOpen_map m ▸ hclosed)]
    exact Merged.finished_map patience m
  | case5 patience m ho e m' h =>
    rw [run_grouped _ _ _ (isOpen_map m ▸ ho), Contest.takeGroups_map hw, h]
    exact Merged.interrupted_map patience e m'
  | case6 patience m ho m' h =>
    rw [run_grouped _ _ _ (isOpen_map m ▸ ho), Contest.takeGroups_map hw, h]
    exact Merged.finished_map patience m'
  | case7 patience m ho n m' h hn ih =>
    rw [run_grouped _ _ _ (isOpen_map m ▸ ho), Contest.takeGroups_map hw, h]
    dsimp only [Advance.map]
    rw [if_pos hn]
    exact ih
  | case8 patience m ho n m' h hn ih =>
    rw [run_grouped _ _ _ (isOpen_map m ▸ ho), Contest.takeGroups_map hw, h]
    dsimp only [Advance.map]
    rw [if_neg hn]
    exact ih
  | case9 patience m ho =>
    rw [run_closed _ _ _ _ (isOpen_map m ▸ ho)]
    exact Merged.finished_map patience m

theorem Merge.start_map (hw : ∀ x y, less' (g x) (g y) = less x y) (d : Direction)
    (patience : Nat) (kept other : List α) :
    Merge.start ⟨d, less'⟩ patience (kept.map g) (other.map g) =
      (Merge.start ⟨d, less⟩ patience kept other).map g := by
  unfold Merge.start
  rw [← Merge.run_map hw, ← Merge.takeOther_map]
  rfl

theorem mergeForward_map (hw : ∀ x y, less' (g x) (g y) = less x y) (patience : Nat)
    (first second : List α) :
    mergeForward less' patience (first.map g) (second.map g) =
      (mergeForward less patience first second).map g :=
  Merge.start_map (fun x y => hw y x) .forward patience first second

theorem mergeBackward_map (hw : ∀ x y, less' (g x) (g y) = less x y) (patience : Nat)
    (first second : List α) :
    mergeBackward less' patience (first.map g) (second.map g) =
      (mergeBackward less patience first second).map g := by
  unfold mergeBackward
  rw [← List.map_reverse, ← List.map_reverse, Merge.start_map hw]
  dsimp only [Merged.map]
  rw [List.map_reverse]

theorem settledBefore_map (hw : ∀ x y, less' (g x) (g y) = less x y) (first second : List α) :
    settledBefore less' (first.map g) (second.map g) = settledBefore less first second := by
  cases second with
  | nil => exact congrArg Except.ok (List.length_map g)
  | cons y ys => exact leading_map (g := g) (fun x => by rw [hw]) .forward first

theorem settledBehind_map (hw : ∀ x y, less' (g x) (g y) = less x y) (first second : List α) :
    settledBehind less' (first.map g) (second.map g) = settledBehind less first second := by
  unfold settledBehind
  rw [List.getLast?_map, List.length_map, ← List.map_reverse]
  cases first.getLast? with
  | none => rfl
  | some x => exact leading_map (g := g) (fun y => by rw [hw]) .backward second.reverse

/-- The parts of two runs, renamed. -/
def mapParts (g : α → β) (parts : List α × List α × List α × List α) :
    List β × List β × List β × List β :=
  (parts.1.map g, parts.2.1.map g, parts.2.2.1.map g, parts.2.2.2.map g)

theorem unsettled_map (hw : ∀ x y, less' (g x) (g y) = less x y) (first second : List α) :
    unsettled less' (first.map g) (second.map g) =
      (unsettled less first second).map (mapParts g) := by
  unfold unsettled
  rw [settledBefore_map hw]
  cases settledBefore less first second with
  | error e => rfl
  | ok n =>
    have hbehind := settledBehind_map hw (first.drop n) second
    simp only [bind, Except.bind, ← List.map_drop, hbehind, List.length_map]
    cases settledBehind less (first.drop n) second with
    | error e => rfl
    | ok k =>
      simp only [Except.map, mapParts, List.map_take, List.map_drop]

/-- **Merging renamed neighbours.** -/
theorem mergeNeighbours_map (hw : ∀ x y, less' (g x) (g y) = less x y) (patience : Nat)
    (first second : List α) :
    mergeNeighbours less' patience (first.map g) (second.map g) =
      (mergeNeighbours less patience first second).map g := by
  unfold mergeNeighbours
  rw [unsettled_map hw]
  cases unsettled less first second with
  | error e =>
    simp only [Except.map, Merged.map, List.map_append]
  | ok parts =>
    obtain ⟨before, moving, moving', behind⟩ := parts
    simp only [Except.map, mapParts, List.isEmpty_map, List.length_map, mergeForward_map hw,
      mergeBackward_map hw]
    split
    · simp only [Merged.map, List.map_append]
    · split <;> simp only [Merged.map, List.map_append]

end Merging
/-! ## 3. Runs -/

/-- A run of renamed items and what is behind it. -/
def NextRun.map (g : α → β) (r : NextRun α ε) : NextRun β ε :=
  ⟨r.run.map g, r.behind.map g, r.failure⟩

section Runs

variable {less : α → α → Except ε Bool} {less' : β → β → Except ε Bool}

theorem runLength_map (hw : ∀ x y, less' (g x) (g y) = less x y) (falling : Bool) (last : α)
    (items : List α) :
    runLength less' falling (g last) (items.map g) = runLength less falling last items := by
  induction items generalizing last with
  | nil => rfl
  | cons x xs ih =>
    rw [List.map_cons]
    unfold runLength
    rw [hw, ih]

theorem firstRun_map (hw : ∀ x y, less' (g x) (g y) = less x y) (first : α) (items : List α) :
    firstRun less' (g first) (items.map g) = firstRun less first items := by
  cases items with
  | nil => rfl
  | cons x xs =>
    rw [List.map_cons]
    unfold firstRun
    simp only [hw, runLength_map hw]

theorem insertAll_map (hw : ∀ x y, less' (g x) (g y) = less x y) (items sorted : List α) :
    insertAll less' (sorted.map g) (items.map g) =
      ((insertAll less sorted items).1.map g, (insertAll less sorted items).2) := by
  induction items generalizing sorted with
  | nil => rfl
  | cons x xs ih =>
    have hhalve : halve .forward (fun y => (! ·) <$> less' (g x) y) (sorted.map g) 0 sorted.length =
        halve .forward (fun y => (! ·) <$> less x y) sorted 0 sorted.length :=
      halve_map (g := g) (fun y => by rw [hw]) .forward sorted 0 sorted.length
    rw [List.map_cons]
    unfold insertAll
    rw [List.length_map, hhalve]
    split
    · simp only [List.map_append, List.map_cons]
    · rename_i i _
      rw [← ih]
      simp only [List.map_append, List.map_cons, List.map_take, List.map_drop]

/-- **Reading a run of renamed items.** -/
theorem nextRun_map (hw : ∀ x y, less' (g x) (g y) = less x y) (shortest : Nat) (first : α)
    (items : List α) :
    nextRun less' shortest (g first) (items.map g) = (nextRun less shortest first items).map g := by
  unfold nextRun
  rw [firstRun_map hw]
  split
  · rfl
  · rename_i n falling _
    have hrun : (if falling then (g first :: (items.map g).take n).reverse
        else g first :: (items.map g).take n) =
        (if falling then (first :: items.take n).reverse else first :: items.take n).map g := by
      split <;> simp only [List.map_reverse, List.map_cons, List.map_take]
    dsimp only
    rw [hrun, ← List.map_drop, ← List.map_take, insertAll_map hw, ← List.map_drop]
    rfl

/-! ## 4. Runs that wait -/

/-- A waiting run of renamed items. -/
def Waiting.map (g : α → β) (w : Waiting α) : Waiting β := { w with items := w.items.map g }

/-- A sorter of renamed items. -/
def Sorter.map (g : α → β) (s : Sorter α ε) : Sorter β ε :=
  { s with runs := s.runs.map (Waiting.map g) }

namespace Sorter

theorem items_map (s : Sorter α ε) : (s.map g).items = s.items.map g := by
  unfold items map
  rw [List.map_flatten, ← List.map_reverse, List.map_map, List.map_map]
  rfl

theorem join_map (hw : ∀ x y, less' (g x) (g y) = less x y) (patience : Nat)
    (left right : Waiting α) :
    join less' patience (left.map g) (right.map g) =
      ((join less patience left right).1.map g, (join less patience left right).2) := by
  have hmerge := mergeNeighbours_map hw patience left.items right.items
  unfold join
  dsimp only [Waiting.map]
  rw [hmerge]
  rfl

theorem mergeAbove_map (hw : ∀ x y, less' (g x) (g y) = less x y) (power : Nat)
    (runs : List (Waiting α)) (patience : Nat) :
    mergeAbove less' power (runs.map (Waiting.map g)) patience =
      (mergeAbove less power runs patience).map g := by
  fun_induction mergeAbove less power runs patience with
  | case1 last before rest patience hp run patience' e h =>
    conv => lhs; unfold mergeAbove
    simp only [List.map_cons, join_map hw, h]
    exact if_pos hp
  | case2 last before rest patience hp run patience' h ih =>
    conv => lhs; unfold mergeAbove
    simp only [List.map_cons, join_map hw, h]
    exact (if_pos hp).trans ih
  | case3 last before rest patience hp =>
    conv => lhs; unfold mergeAbove
    exact if_neg hp
  | case4 runs patience hruns =>
    rcases runs with _ | ⟨last, _ | ⟨before, rest⟩⟩
    · unfold mergeAbove
      rfl
    · unfold mergeAbove
      rfl
    · exact (hruns _ _ _ rfl).elim

theorem withPower_map (power : Nat) (runs : List (Waiting α)) :
    withPower power (runs.map (Waiting.map g)) = (withPower power runs).map (Waiting.map g) := by
  cases runs <;> rfl

/-- **Taking in a run of renamed items.** -/
theorem push_map (hw : ∀ x y, less' (g x) (g y) = less x y) (total : Nat) (s : Sorter α ε)
    (run : List α) : (s.map g).push less' total (run.map g) = (s.push less total run).map g := by
  obtain ⟨runs, patience, failure⟩ := s
  cases runs with
  | nil => simp only [push, map, List.map_nil, List.length_map, List.map_cons, Waiting.map]
  | cons last rest =>
    have hmerged := mergeAbove_map hw (placePower last.start last.size run.length total)
      (last :: rest) patience
    have hrun : (run.map g).length = run.length := List.length_map g
    unfold push
    rw [List.map_cons] at hmerged
    dsimp only [map]
    rw [hrun, List.map_cons]
    dsimp only [Waiting.map] at hmerged ⊢
    rw [hmerged]
    dsimp only [map]
    rw [withPower_map]
    rfl

theorem collapse_map (hw : ∀ x y, less' (g x) (g y) = less x y) (runs : List (Waiting α))
    (patience : Nat) :
    collapse less' (runs.map (Waiting.map g)) patience = (collapse less runs patience).map g := by
  fun_induction collapse less runs patience with
  | case1 last before far rest patience hs run patience' e h =>
    conv => lhs; unfold collapse
    simp only [List.map_cons, join_map hw, h]
    exact if_pos hs
  | case2 last before far rest patience hs run patience' h ih =>
    conv => lhs; unfold collapse
    simp only [List.map_cons, join_map hw, h]
    exact (if_pos hs).trans ih
  | case3 last before far rest patience hs run patience' e h =>
    conv => lhs; unfold collapse
    simp only [List.map_cons, join_map hw, h]
    exact if_neg hs
  | case4 last before far rest patience hs run patience' h ih =>
    conv => lhs; unfold collapse
    simp only [List.map_cons, join_map hw, h]
    exact (if_neg hs).trans ih
  | case5 last before patience run patience' failure h =>
    conv => lhs; unfold collapse
    simp only [List.map_cons, List.map_nil, join_map hw, h]
    rfl
  | case6 runs patience h h' =>
    rcases runs with _ | ⟨last, _ | ⟨before, _ | ⟨far, rest⟩⟩⟩
    · unfold collapse
      rfl
    · unfold collapse
      rfl
    · exact (h' _ _ rfl).elim
    · exact (h _ _ _ _ rfl).elim

end Sorter

/-! ## 5. Sorting -/

theorem sortFrom_map (hw : ∀ x y, less' (g x) (g y) = less x y) (total shortest : Nat)
    (s : Sorter α ε) (items : List α) :
    sortFrom less' total shortest (s.map g) (items.map g) =
      ((sortFrom less total shortest s items).1.map g,
        (sortFrom less total shortest s items).2) := by
  fun_induction sortFrom less total shortest s items with
  | case1 s sorted =>
    conv => lhs; unfold sortFrom
    have hcollapse := Sorter.collapse_map hw s.runs s.patience
    dsimp only [List.map_nil, Sorter.map]
    rw [hcollapse, Sorter.items_map]
    rfl
  | case2 s x xs next e h =>
    conv => lhs; unfold sortFrom
    simp only [List.map_cons, nextRun_map hw, NextRun.map, Sorter.items_map, List.map_append]
    rw [show (nextRun less shortest x xs).failure = some e from h]
  | case3 s x xs next h s' e h' =>
    conv => lhs; unfold sortFrom
    simp only [List.map_cons, nextRun_map hw, NextRun.map, Sorter.push_map hw, Sorter.items_map]
    rw [show (nextRun less shortest x xs).failure = none from h]
    dsimp only
    rw [show (Sorter.map g (s.push less total (nextRun less shortest x xs).run)).failure = some e
      from h', List.map_append]
  | case4 s x xs next h s' h' ih =>
    conv => lhs; unfold sortFrom
    simp only [List.map_cons, nextRun_map hw, NextRun.map, Sorter.push_map hw, Sorter.items_map]
    rw [show (nextRun less shortest x xs).failure = none from h]
    dsimp only
    rw [show (Sorter.map g (s.push less total (nextRun less shortest x xs).run)).failure = none
      from h']
    exact ih

/-- **Sorting renamed items.** -/
theorem sortItems_map (hw : ∀ x y, less' (g x) (g y) = less x y) (items : List α) :
    sortItems less' (items.map g) = ((sortItems less items).1.map g, (sortItems less items).2) := by
  unfold sortItems
  rw [List.length_map]
  exact sortFrom_map hw _ _ Sorter.empty items

end Runs
end TextTemplate.Sorting
