/-
# Sorting loses nothing

Whatever the comparisons say, and also where one fails: the items that come out of sorting are the
items that went in, each as often as before (`sortItems_perm`).

What is still to be merged is spread over several lists.  `Merge.content` and `Sorter.content` put
them together, and each step of sorting is shown to leave the content as it is, up to its order.
-/
import TextTemplate.Sorting.Runs

namespace TextTemplate.Sorting

open List

variable {α ε : Type}

/-! ## 1. Merging -/

namespace Merge

/-- All items of a merge under way. -/
def content (m : Merge α) : List α := m.placed ++ (m.kept ++ m.other)

theorem content_takeKept (m : Merge α) (n : Nat) : (m.takeKept n).content ~ m.content := by
  classical
  refine perm_iff_count.mpr fun a => ?_
  have hsplit := congrArg (count a) (take_append_drop n m.kept)
  simp only [content, takeKept, count_append, count_reverse] at hsplit ⊢
  omega

theorem content_takeOther (m : Merge α) (n : Nat) : (m.takeOther n).content ~ m.content := by
  classical
  refine perm_iff_count.mpr fun a => ?_
  have hsplit := congrArg (count a) (take_append_drop n m.other)
  simp only [content, takeOther, count_append, count_reverse] at hsplit ⊢
  omega

theorem finished_perm (m : Merge α) : m.finished ~ m.content := by
  classical
  refine perm_iff_count.mpr fun a => ?_
  simp only [content, finished, count_append, count_reverse]
  omega

theorem interrupted_perm (m : Merge α) : m.interrupted ~ m.content := by
  classical
  refine perm_iff_count.mpr fun a => ?_
  simp only [content, interrupted, count_append, count_reverse]
  omega

end Merge

/-- The merge behind an attempt to take a group. -/
def Advance.merge : Advance α ε → Merge α
  | .goesOn _ m => m
  | .closes m => m
  | .fails _ m => m

namespace Contest

theorem merge_goOn (n : Nat) (m : Merge α) : (goOn n m : Advance α ε).merge = m := by
  unfold goOn
  split <;> rfl

theorem content_takeKeptGroup (c : Contest α ε) (m : Merge α) :
    (c.takeKeptGroup m).merge.content ~ m.content := by
  unfold takeKeptGroup
  split
  · exact Perm.refl _
  · split
    · exact Perm.refl _
    · rename_i n _
      split
      · rw [merge_goOn]
        exact (Merge.content_takeOther _ 1).trans (m.content_takeKept n)
      · exact m.content_takeKept n

theorem content_takeOtherGroup (c : Contest α ε) (m : Merge α) :
    (c.takeOtherGroup m).merge.content ~ m.content := by
  unfold takeOtherGroup
  split
  · exact Perm.refl _
  · split
    · exact Perm.refl _
    · rename_i n _
      split
      · rw [merge_goOn]
        exact (Merge.content_takeKept _ 1).trans (m.content_takeOther n)
      · exact m.content_takeOther n

theorem content_of_eq {x y : Advance α ε} {items : List α} (h : x = y)
    (hx : x.merge.content ~ items) : y.merge.content ~ items := h ▸ hx

/-- Two groups in turn lose nothing. -/
theorem content_takeGroups (c : Contest α ε) (m : Merge α) :
    (c.takeGroups m).merge.content ~ m.content := by
  have hkept := content_takeKeptGroup c
  have hother := content_takeOtherGroup c
  obtain ⟨d, wins⟩ := c
  cases d with
  | forward =>
    simp only [takeGroups]
    split
    · rename_i n m₁ h₁
      have hm₁ : m₁.content ~ m.content := content_of_eq h₁ (hkept m)
      split
      · rename_i n' m₂ h₂
        exact (content_of_eq h₂ (hother m₁)).trans hm₁
      · exact (hother m₁).trans hm₁
    · exact hkept m
  | backward =>
    simp only [takeGroups]
    split
    · rename_i n m₁ h₁
      have hm₁ : m₁.content ~ m.content := content_of_eq h₁ (hother m)
      split
      · rename_i n' m₂ h₂
        exact (content_of_eq h₂ (hkept m₁)).trans hm₁
      · exact (hkept m₁).trans hm₁
    · exact hother m

end Contest

/-- **A merge loses nothing**, also when it is interrupted. -/
theorem Merge.run_perm (c : Contest α ε) (pace : Pace) (patience : Nat) (m : Merge α) :
    (Merge.run c pace patience m).items ~ m.content := by
  fun_induction Merge.run c pace patience m with
  | case1 => exact interrupted_perm _
  | case2 patience streak byOther placed x x' xs y ys h streak' ih =>
    exact ih.trans (content_takeOther ⟨placed, x :: x' :: xs, y :: ys⟩ 1)
  | case3 patience streak byOther placed x x' xs y ys h streak' ih =>
    exact ih.trans (content_takeKept ⟨placed, x :: x' :: xs, y :: ys⟩ 1)
  | case4 => exact finished_perm _
  | case5 patience m ho e m' h =>
    exact (interrupted_perm m').trans (Contest.content_of_eq h (c.content_takeGroups m))
  | case6 patience m ho m' h =>
    exact (finished_perm m').trans (Contest.content_of_eq h (c.content_takeGroups m))
  | case7 patience m ho n m' h hn ih =>
    exact ih.trans (Contest.content_of_eq h (c.content_takeGroups m))
  | case8 patience m ho n m' h hn ih =>
    exact ih.trans (Contest.content_of_eq h (c.content_takeGroups m))
  | case9 => exact finished_perm _

theorem Merge.start_perm (c : Contest α ε) (patience : Nat) (kept other : List α) :
    (Merge.start c patience kept other).items ~ kept ++ other :=
  (Merge.run_perm c _ patience _).trans (content_takeOther ⟨[], kept, other⟩ 1)

theorem mergeForward_perm (less : α → α → Except ε Bool) (patience : Nat) (first second : List α) :
    (mergeForward less patience first second).items ~ first ++ second :=
  Merge.start_perm _ patience first second

theorem mergeBackward_perm (less : α → α → Except ε Bool) (patience : Nat)
    (first second : List α) :
    (mergeBackward less patience first second).items ~ first ++ second := by
  have hmerge := Merge.start_perm ⟨.backward, less⟩ patience second.reverse first.reverse
  rw [← reverse_append] at hmerge
  exact (reverse_perm _).trans (hmerge.trans (reverse_perm _))

/-- What is in place already and what is not are the two runs. -/
theorem unsettled_append {less : α → α → Except ε Bool}
    {first second before moving moving' behind : List α}
    (h : unsettled less first second = .ok (before, moving, moving', behind)) :
    before ++ moving = first ∧ moving' ++ behind = second := by
  unfold unsettled at h
  cases hb : settledBefore less first second with
  | error e =>
    rw [hb] at h
    cases h
  | ok n =>
    rw [hb] at h
    simp only [bind, Except.bind] at h
    split at h
    · cases h
    · cases h
      exact ⟨take_append_drop .., take_append_drop ..⟩

/-- **Merging two neighbours loses nothing.** -/
theorem mergeNeighbours_perm (less : α → α → Except ε Bool) (patience : Nat)
    (first second : List α) :
    (mergeNeighbours less patience first second).items ~ first ++ second := by
  unfold mergeNeighbours
  split
  · exact Perm.refl _
  · rename_i before moving moving' behind h
    obtain ⟨hfirst, hsecond⟩ := unsettled_append h
    split
    · exact Perm.refl _
    · have hmerged : (if moving.length ≤ moving'.length then
            mergeForward less patience moving moving'
          else mergeBackward less patience moving moving').items ~ moving ++ moving' := by
        split
        · exact mergeForward_perm less patience moving moving'
        · exact mergeBackward_perm less patience moving moving'
      rw [← hfirst, ← hsecond, append_assoc before, ← append_assoc moving, ← append_assoc before]
      exact (hmerged.append_left before).append_right behind

/-! ## 2. Runs -/

theorem insertAll_perm (less : α → α → Except ε Bool) : ∀ (items sorted : List α),
    (insertAll less sorted items).1 ~ sorted ++ items
  | [], sorted => by
    rw [insertAll, append_nil]
  | x :: items, sorted => by
    rw [insertAll]
    split
    · exact Perm.refl _
    · rename_i i _
      have ih := insertAll_perm less items (sorted.take i ++ x :: sorted.drop i)
      have hinsert : sorted.take i ++ x :: sorted.drop i ~ x :: sorted := by
        have hmiddle := @perm_middle _ x (sorted.take i) (sorted.drop i)
        rw [take_append_drop] at hmiddle
        exact hmiddle
      exact ih.trans ((hinsert.append_right items).trans perm_middle.symm)

/-- **Reading a run loses nothing.** -/
theorem nextRun_perm (less : α → α → Except ε Bool) (shortest : Nat) (first : α)
    (items : List α) : (nextRun less shortest first items).run ++
      (nextRun less shortest first items).behind ~ first :: items := by
  unfold nextRun
  split
  · rw [append_nil]
  · rename_i n falling _
    have hrun : (if falling then (first :: items.take n).reverse else first :: items.take n) ~
        first :: items.take n := by
      cases falling with
      | true => exact reverse_perm _
      | false => exact Perm.refl _
    have hall := insertAll_perm less ((items.drop n).take (shortest - (n + 1)))
      (if falling then (first :: items.take n).reverse else first :: items.take n)
    refine ((hall.trans (hrun.append_right _)).append_right _).trans ?_
    rw [append_assoc, take_append_drop, cons_append, take_append_drop]

/-! ## 3. Runs that wait -/

namespace Sorter

/-- All items of the runs that wait. -/
def content (runs : List (Waiting α)) : List α := runs.flatMap (·.items)

theorem items_perm (s : Sorter α ε) : s.items ~ content s.runs := by
  unfold items content
  rw [← flatMap_def]
  exact (reverse_perm s.runs).flatMap_right _

theorem join_perm (less : α → α → Except ε Bool) (patience : Nat) (left right : Waiting α) :
    (join less patience left right).1.items ~ left.items ++ right.items :=
  mergeNeighbours_perm less patience left.items right.items

theorem content_cons (w : Waiting α) (runs : List (Waiting α)) :
    content (w :: runs) = w.items ++ content runs := flatMap_cons ..

/-- Two neighbours that are merged, with the last of them in front. -/
theorem content_join (less : α → α → Except ε Bool) (patience : Nat) (left right : Waiting α)
    (rest : List (Waiting α)) :
    content ((join less patience left right).1 :: rest) ~ content (right :: left :: rest) := by
  rw [content_cons, content_cons, content_cons, ← append_assoc]
  exact ((join_perm less patience left right).trans perm_append_comm).append_right _

theorem content_mergeAbove (less : α → α → Except ε Bool) (power : Nat)
    (runs : List (Waiting α)) (patience : Nat) :
    content (mergeAbove less power runs patience).runs ~ content runs := by
  fun_induction mergeAbove less power runs patience with
  | case1 last before rest patience _ run patience' e h =>
    have hjoin := content_join less patience before last rest
    rw [h] at hjoin
    exact hjoin
  | case2 last before rest patience _ run patience' h ih =>
    have hjoin := content_join less patience before last rest
    rw [h] at hjoin
    exact ih.trans hjoin
  | case3 => exact Perm.refl _
  | case4 => exact Perm.refl _

theorem content_withPower (power : Nat) (runs : List (Waiting α)) :
    content (withPower power runs) = content runs := by
  cases runs <;> rfl

/-- **Taking in a run loses nothing.** -/
theorem content_push (less : α → α → Except ε Bool) (total : Nat) (s : Sorter α ε)
    (run : List α) : content (s.push less total run).runs ~ content s.runs ++ run := by
  obtain ⟨runs, patience, failure⟩ := s
  cases runs with
  | nil =>
    have hcontent : content [(⟨run, run.length, 0, 0⟩ : Waiting α)] = run := append_nil run
    exact Perm.of_eq hcontent
  | cons last rest =>
    have hmerged := content_mergeAbove less
      (placePower last.start last.size run.length total) (last :: rest) patience
    refine Perm.trans ?_ perm_append_comm
    show content (_ :: withPower _ _) ~ _
    rw [content_cons, content_withPower]
    exact hmerged.append_left run

theorem content_collapse (less : α → α → Except ε Bool) (runs : List (Waiting α))
    (patience : Nat) : content (collapse less runs patience).runs ~ content runs := by
  fun_induction collapse less runs patience with
  | case1 last before far rest patience _ run patience' e h =>
    have hjoin := content_join less patience far before rest
    rw [h] at hjoin
    exact hjoin.append_left last.items
  | case2 last before far rest patience _ run patience' h ih =>
    have hjoin := content_join less patience far before rest
    rw [h] at hjoin
    exact ih.trans (hjoin.append_left last.items)
  | case3 last before far rest patience _ run patience' e h =>
    have hjoin := content_join less patience before last (far :: rest)
    rw [h] at hjoin
    exact hjoin
  | case4 last before far rest patience _ run patience' h ih =>
    have hjoin := content_join less patience before last (far :: rest)
    rw [h] at hjoin
    exact ih.trans hjoin
  | case5 last before patience run patience' failure h =>
    have hjoin := content_join less patience before last []
    rw [h] at hjoin
    exact hjoin
  | case6 => exact Perm.refl _

end Sorter

/-! ## 4. Sorting -/

/-- Sorting behind the runs that wait loses nothing. -/
theorem sortFrom_perm (less : α → α → Except ε Bool) (total shortest : Nat) (s : Sorter α ε)
    (items : List α) :
    (sortFrom less total shortest s items).1 ~ Sorter.content s.runs ++ items := by
  fun_induction sortFrom less total shortest s items with
  | case1 s sorted =>
    rw [append_nil]
    exact (Sorter.items_perm _).trans (Sorter.content_collapse less s.runs s.patience)
  | case2 s x xs next e h =>
    have hnext := nextRun_perm less shortest x xs
    rw [append_assoc]
    exact (s.items_perm.append_right _).trans (hnext.append_left _)
  | case3 s x xs next h s' e h' =>
    have hnext := nextRun_perm less shortest x xs
    have hpush := (Sorter.items_perm s').trans (s.content_push less total next.run)
    refine (hpush.append_right _).trans ?_
    rw [append_assoc]
    exact hnext.append_left _
  | case4 s x xs next h s' h' ih =>
    have hnext := nextRun_perm less shortest x xs
    refine ih.trans (((s.content_push less total next.run).append_right _).trans ?_)
    rw [append_assoc]
    exact hnext.append_left _

/-- **The items that come out of sorting are those that went in.** -/
theorem sortItems_perm (less : α → α → Except ε Bool) (items : List α) :
    (sortItems less items).1 ~ items :=
  sortFrom_perm less items.length (shortestRun false items.length) Sorter.empty items

end TextTemplate.Sorting
