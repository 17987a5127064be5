/-
# Why a run ends

A running program jumps back only to take the next item of a loop, and a loop has finitely many.
This is measured by a **rank**: a row of terms with falling exponents, one for each running loop
with the number of items left, and one for the place that has been reached.  Ranks are compared
from the front, so what an outer loop uses up outweighs whatever happens inside it.

* `Rank.below` compares two ranks, and `Rank.instWellFoundedRelation` says that no row of ranks
  falls for ever;
* `Rank.of` is the rank of a place inside running loops.
-/

namespace TextTemplate

/-- A row of terms: an exponent and a coefficient each. -/
structure Rank where
  terms : List (Nat × Nat)
  deriving DecidableEq, Repr

namespace Rank

/-! ## 1. The order -/

/-- Do the exponents fall? -/
def falling : List (Nat × Nat) → Bool
  | [] => true
  | [_] => true
  | t :: u :: rest => u.1 < t.1 && falling (u :: rest)

/-- Is the first row below the second?  The first different term decides, its exponent before its
coefficient, and a row is above the rows that it begins with. -/
def belowTerms : List (Nat × Nat) → List (Nat × Nat) → Bool
  | _, [] => false
  | [], _ :: _ => true
  | t :: ts, u :: us =>
    t.1 < u.1 || (t.1 == u.1 && (t.2 < u.2 || (t.2 == u.2 && belowTerms ts us)))

/-- A rank is below another if its exponents fall and its row is below the other row. -/
def below (r s : Rank) : Bool := falling r.terms && belowTerms r.terms s.terms

/-! ## 2. No rank falls for ever -/

theorem falling_tail {t : Nat × Nat} {ts : List (Nat × Nat)} (h : falling (t :: ts) = true) :
    falling ts = true := by
  cases ts with
  | nil => rfl
  | cons u us => simp only [falling, Bool.and_eq_true] at h; exact h.2

/-- The first exponent of a row is below `n`. -/
def headBelow (n : Nat) : List (Nat × Nat) → Prop
  | [] => True
  | t :: _ => t.1 < n

theorem headBelow_tail {t : Nat × Nat} {ts : List (Nat × Nat)} (h : falling (t :: ts) = true) :
    headBelow t.1 ts := by
  cases ts with
  | nil => trivial
  | cons u us => simp only [falling, Bool.and_eq_true, decide_eq_true_eq] at h; exact h.1

/-- The relation on rows. -/
def Falls (ts us : List (Nat × Nat)) : Prop := falling ts = true ∧ belowTerms ts us = true

/-- A row in front of an accessible one is accessible, if all rows with smaller exponents are. -/
theorem acc_cons {n : Nat} (hn : ∀ ts, falling ts = true → headBelow n ts → Acc Falls ts) :
    ∀ (b : Nat) (ts : List (Nat × Nat)), Acc Falls ts → Acc Falls ((n, b) :: ts) := by
  intro b
  induction b using Nat.strongRecOn with
  | ind b ihb =>
    intro ts hts
    induction hts with
    | intro ts _ iht =>
      refine Acc.intro _ fun us hus => ?_
      obtain ⟨hf, hb⟩ := hus
      cases us with
      | nil => exact hn [] rfl trivial
      | cons u us =>
        simp only [belowTerms, Bool.or_eq_true, Bool.and_eq_true, decide_eq_true_eq,
          beq_iff_eq] at hb
        rcases hb with h | ⟨he, h | ⟨hc, h⟩⟩
        · exact hn _ hf h
        · have hu : u = (n, u.2) := Prod.ext he rfl
          have hacc := hn us (falling_tail hf) (he ▸ headBelow_tail hf)
          rw [hu]
          exact ihb u.2 h us hacc
        · have hu : u = (n, b) := Prod.ext he hc
          rw [hu]
          exact iht us ⟨falling_tail hf, h⟩

/-- Every row with falling exponents is accessible. -/
theorem acc_of_falling : ∀ (n : Nat) (ts : List (Nat × Nat)),
    falling ts = true → headBelow n ts → Acc Falls ts := by
  intro n
  induction n with
  | zero =>
    intro ts _ hh
    cases ts with
    | nil => exact Acc.intro _ fun us hus => by cases us <;> simp [Falls, belowTerms] at hus
    | cons t ts => exact absurd hh (Nat.not_lt_zero _)
  | succ n ih =>
    intro ts hf hh
    cases ts with
    | nil => exact Acc.intro _ fun us hus => by cases us <;> simp [Falls, belowTerms] at hus
    | cons t ts =>
      rcases Nat.lt_or_eq_of_le (Nat.le_of_lt_succ hh) with h | h
      · exact ih _ hf h
      · have ht : t = (n, t.2) := Prod.ext h rfl
        have hacc := ih ts (falling_tail hf) (h ▸ headBelow_tail hf)
        rw [ht]
        exact acc_cons ih t.2 ts hacc

/-- **No rank falls for ever.** -/
theorem falls_wf : WellFounded Falls := by
  refine ⟨fun ts => Acc.intro _ fun us hus => ?_⟩
  cases us with
  | nil => exact acc_of_falling 0 [] rfl trivial
  | cons u us => exact acc_of_falling (u.1 + 1) _ hus.1 (Nat.lt_succ_self _)

instance : WellFoundedRelation Rank where
  rel r s := r.below s = true
  wf := by
    refine Subrelation.wf ?_ (InvImage.wf Rank.terms falls_wf)
    intro r s h
    simpa [below, InvImage, Falls] using h

/-! ## 3. The rank of a place -/

/-- The rank of the place `position` in a program of some length, inside loops given by where they
start and how many items they have left, the innermost first.  A loop is a term with an even
exponent, the place itself one with an odd exponent. -/
def of (length position : Nat) (loops : List (Nat × Nat)) : Rank :=
  ⟨(loops.map fun l => (2 * (length - l.1), l.2)).reverse ++ [(2 * (length - position) + 1, 0)]⟩

end Rank
end TextTemplate
