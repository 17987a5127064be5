/-
# Sorting fails only where a comparison fails

Where sorting stops half way, the error is that of a comparison of two items (`sortItems_fails`).
So items that can all be compared are sorted (`sortItems_total`).

Searches and runs fail as their conditions do; merges, and the runs that wait, as the comparison
does.
-/
import TextTemplate.Proofs.Outcome
import TextTemplate.Proofs.Sorting.Naturality

namespace TextTemplate.Sorting

open TextTemplate.Outcome

variable {α ε : Type} {e : ε}

/-! ## 1. Searching -/

section Search

variable {goes : α → Except ε Bool}

theorem halve_fails {d : Direction} {items : List α} {low high : Nat}
    (h : halve d goes items low high = .error e) : ∃ x, goes x = .error e := by
  fun_induction halve d goes items low high with
  | case1 => cases h
  | case2 low high _ x _ ihtrue ihfalse =>
    rcases except_bind_eq_error h with hx | ⟨b, -, h⟩
    · exact ⟨x, hx⟩
    · cases b with
      | true => exact ihtrue h
      | false => exact ihfalse h
  | case3 => cases h

theorem reach_fails {items : List α} {last next : Nat}
    (h : reach goes items last next = .error e) : ∃ x, goes x = .error e := by
  fun_induction reach goes items last next with
  | case1 => cases h
  | case2 last next _ x _ ih =>
    rcases except_bind_eq_error h with hx | ⟨b, -, h⟩
    · exact ⟨x, hx⟩
    · cases b with
      | true => exact ih h
      | false => cases h
  | case3 => cases h

/-- **A search fails where its condition does.** -/
theorem leading_fails {d : Direction} {items : List α} (h : leading d goes items = .error e) :
    ∃ x, goes x = .error e := by
  cases items with
  | nil => cases h
  | cons x xs =>
    unfold leading at h
    rcases except_bind_eq_error h with hx | ⟨b, -, h⟩
    · exact ⟨x, hx⟩
    · cases b with
      | false => cases h
      | true =>
        rcases except_bind_eq_error h with hreach | ⟨places, -, h⟩
        · exact reach_fails hreach
        · exact halve_fails h

end Search

/-! ## 2. Merging -/

/-- A comparison fails with the error. -/
def FailsWith (less : α → α → Except ε Bool) (e : ε) : Prop := ∃ x y, less x y = .error e

namespace Contest

variable {c : Contest α ε} {m m' : Merge α}

theorem takeKeptGroup_fails (h : c.takeKeptGroup m = .fails e m') : FailsWith c.wins e := by
  unfold takeKeptGroup at h
  split at h
  · cases h
  · rename_i y _ _
    split at h
    · rename_i e' hlead
      cases h
      obtain ⟨x, hx⟩ := leading_fails hlead
      exact ⟨x, y, except_map_eq_error hx⟩
    · split at h
      · unfold goOn at h
        split at h <;> cases h
      · cases h

theorem takeOtherGroup_fails (h : c.takeOtherGroup m = .fails e m') : FailsWith c.wins e := by
  unfold takeOtherGroup at h
  split at h
  · cases h
  · rename_i x _ _
    split at h
    · rename_i e' hlead
      cases h
      obtain ⟨y, hy⟩ := leading_fails hlead
      exact ⟨x, y, hy⟩
    · split at h
      · unfold goOn at h
        split at h <;> cases h
      · cases h

theorem takeGroups_fails (h : c.takeGroups m = .fails e m') : FailsWith c.wins e := by
  obtain ⟨d, wins⟩ := c
  cases d with
  | forward =>
    simp only [takeGroups] at h
    split at h
    · split at h
      · cases h
      · exact takeOtherGroup_fails h
    · exact takeKeptGroup_fails h
  | backward =>
    simp only [takeGroups] at h
    split at h
    · split at h
      · cases h
      · exact takeKeptGroup_fails h
    · exact takeOtherGroup_fails h

end Contest

/-- **A merge fails where its comparison does.** -/
theorem Merge.run_fails {c : Contest α ε} {pace : Pace} {patience : Nat} {m : Merge α}
    (h : (Merge.run c pace patience m).failure = some e) : FailsWith c.wins e := by
  fun_induction Merge.run c pace patience m with
  | case1 patience streak byOther placed x x' xs y ys e' hxy =>
    cases h
    exact ⟨x, y, hxy⟩
  | case2 patience streak byOther placed x x' xs y ys _ streak' ih => exact ih h
  | case3 patience streak byOther placed x x' xs y ys _ streak' ih => exact ih h
  | case4 => cases h
  | case5 patience m _ e' m' hgroups =>
    cases h
    exact Contest.takeGroups_fails hgroups
  | case6 => cases h
  | case7 patience m _ n m' _ _ ih => exact ih h
  | case8 patience m _ n m' _ _ ih => exact ih h
  | case9 => cases h

variable {less : α → α → Except ε Bool}

/-- What is in place already is searched for with the comparison. -/
theorem unsettled_fails {first second : List α} (h : unsettled less first second = .error e) :
    FailsWith less e := by
  have hbefore : ∀ {xs ys : List α}, settledBefore less xs ys = .error e → FailsWith less e := by
    intro xs ys hxy
    unfold settledBefore at hxy
    split at hxy
    · cases hxy
    · rename_i y _
      obtain ⟨x, hx⟩ := leading_fails hxy
      exact ⟨y, x, except_map_eq_error hx⟩
  have hbehind : ∀ {xs ys : List α}, settledBehind less xs ys = .error e → FailsWith less e := by
    intro xs ys hxy
    unfold settledBehind at hxy
    split at hxy
    · cases hxy
    · rename_i x _
      obtain ⟨y, hy⟩ := leading_fails hxy
      exact ⟨y, x, except_map_eq_error hy⟩
  unfold unsettled at h
  rcases except_bind_eq_error h with h | ⟨before, -, h⟩
  · exact hbefore h
  · rcases except_bind_eq_error h with h | ⟨behind, -, h⟩
    · exact hbehind h
    · cases h

theorem mergeNeighbours_fails {patience : Nat} {first second : List α}
    (h : (mergeNeighbours less patience first second).failure = some e) : FailsWith less e := by
  unfold mergeNeighbours at h
  split at h
  · rename_i e' hunsettled
    cases h
    exact unsettled_fails hunsettled
  · split at h
    · cases h
    · dsimp only at h
      split at h
      · obtain ⟨x, y, hxy⟩ := Merge.run_fails h
        exact ⟨y, x, hxy⟩
      · exact Merge.run_fails h

/-! ## 3. Runs -/

theorem runLength_fails {falling : Bool} : ∀ {last : α} {items : List α},
    runLength less falling last items = .error e → FailsWith less e
  | last, [], h => by cases h
  | last, x :: xs, h => by
    unfold runLength at h
    rcases except_bind_eq_error h with hx | ⟨b, -, h⟩
    · exact ⟨x, last, hx⟩
    · split at h
      · exact runLength_fails (except_map_eq_error h)
      · cases h

theorem firstRun_fails {first : α} {items : List α} (h : firstRun less first items = .error e) :
    FailsWith less e := by
  cases items with
  | nil => cases h
  | cons x xs =>
    unfold firstRun at h
    rcases except_bind_eq_error h with hx | ⟨falling, -, h⟩
    · exact ⟨x, first, hx⟩
    · rcases except_bind_eq_error h with h | ⟨n, -, h⟩
      · exact runLength_fails h
      · cases h

theorem insertAll_fails : ∀ {sorted items : List α},
    (insertAll less sorted items).2 = some e → FailsWith less e
  | sorted, [], h => by cases h
  | sorted, x :: items, h => by
    unfold insertAll at h
    split at h
    · rename_i e' hhalve
      cases h
      obtain ⟨y, hy⟩ := halve_fails hhalve
      exact ⟨x, y, except_map_eq_error hy⟩
    · exact insertAll_fails h

theorem nextRun_fails {shortest : Nat} {first : α} {items : List α}
    (h : (nextRun less shortest first items).failure = some e) : FailsWith less e := by
  unfold nextRun at h
  split at h
  · rename_i e' hfirst
    cases h
    exact firstRun_fails hfirst
  · exact insertAll_fails h

/-! ## 4. Runs that wait -/

namespace Sorter

theorem join_fails {patience : Nat} {left right : Waiting α}
    (h : (join less patience left right).2.2 = some e) : FailsWith less e := mergeNeighbours_fails h

theorem mergeAbove_fails {power : Nat} {runs : List (Waiting α)} {patience : Nat}
    (h : (mergeAbove less power runs patience).failure = some e) : FailsWith less e := by
  fun_induction mergeAbove less power runs patience with
  | case1 last before rest patience _ run patience' e' hjoin =>
    cases h
    exact join_fails (congrArg (·.2.2) hjoin)
  | case2 last before rest patience _ run patience' _ ih => exact ih h
  | case3 => cases h
  | case4 => cases h

theorem push_fails {total : Nat} {s : Sorter α ε} {run : List α} (hs : s.failure = none)
    (h : (s.push less total run).failure = some e) : FailsWith less e := by
  unfold push at h
  split at h
  · rw [hs] at h
    cases h
  · exact mergeAbove_fails h

theorem collapse_fails {runs : List (Waiting α)} {patience : Nat}
    (h : (collapse less runs patience).failure = some e) : FailsWith less e := by
  fun_induction collapse less runs patience with
  | case1 last before far rest patience _ run patience' e' hjoin =>
    cases h
    exact join_fails (congrArg (·.2.2) hjoin)
  | case2 last before far rest patience _ run patience' _ ih => exact ih h
  | case3 last before far rest patience _ run patience' e' hjoin =>
    cases h
    exact join_fails (congrArg (·.2.2) hjoin)
  | case4 last before far rest patience _ run patience' _ ih => exact ih h
  | case5 last before patience run patience' failure hjoin =>
    exact join_fails ((congrArg (·.2.2) hjoin).trans h)
  | case6 => cases h

end Sorter

/-! ## 5. Sorting -/

theorem sortFrom_fails {total shortest : Nat} {s : Sorter α ε} {items : List α}
    (hs : s.failure = none) (h : (sortFrom less total shortest s items).2 = some e) :
    FailsWith less e := by
  fun_induction sortFrom less total shortest s items with
  | case1 s sorted => exact Sorter.collapse_fails h
  | case2 s x xs next e' hnext =>
    cases h
    exact nextRun_fails hnext
  | case3 s x xs next _ s' e' hpush =>
    cases h
    exact Sorter.push_fails hs hpush
  | case4 s x xs next _ s' hs' ih => exact ih hs' h

/-- **Sorting fails only where a comparison fails.** -/
theorem sortItems_fails {items : List α} (h : (sortItems less items).2 = some e) :
    FailsWith less e := sortFrom_fails rfl h

/-- **Items that can all be compared are sorted.** -/
theorem sortItems_total (h : ∀ x y, ∃ b, less x y = .ok b) (items : List α) :
    (sortItems less items).2 = none := by
  cases hfault : (sortItems less items).2 with
  | none => rfl
  | some e =>
    obtain ⟨x, y, hxy⟩ := sortItems_fails hfault
    obtain ⟨b, hb⟩ := h x y
    rw [hb] at hxy
    cases hxy

end TextTemplate.Sorting
