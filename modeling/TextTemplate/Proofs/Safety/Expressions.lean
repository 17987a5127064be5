/-
# Expressions that leak

An expression starts with a value that is no safe text, and its filters are applied one after
another.  It **leaks** if one of them is a `join` that puts something untamed between the characters
of a safe text, and all filters behind it let that through.  Without the filter `safe` this is the
only way to get an untamed safe text: `Region.Holds.resolve_sound_iff`.
-/
import TextTemplate.Expression.Basic
import TextTemplate.Proofs.Safety.Join

namespace TextTemplate

open TextTemplate.Outcome TextTemplate.Text

variable {R : Region} {c : Scopes} {s s' : Store} {v v' : Value} {a : Application}
  {e : Expression}

/-! ## 1. Applying a filter -/

/-- The expression marks nothing as safe: none of its filters is `safe`. -/
def Expression.MarksNothing (e : Expression) : Prop := ∀ a ∈ e.filters, a.name ≠ "safe"

instance (e : Expression) : Decidable e.MarksNothing := List.decidableBAll _ e.filters

namespace Region

/-- The argument of a filter. -/
theorem keeps_argument (h : R.PlainScopes c) (argument : Option Operand) :
    R.Keeps (argument.mapM (·.resolveOrNone c)) fun o => ∀ w ∈ o, R.Plain w := by
  cases argument with
  | none => exact .pure fun w hw => by cases hw
  | some operand =>
    refine .bind (keeps_resolveOrNone h operand) fun w hw => .pure ?_
    rintro w' ⟨⟩
    exact hw

/-- What a filter gives lies in the region. -/
theorem keeps_applyFilter (h : R.PlainScopes c) (ha : a.name ≠ "safe") (hv : R.Has v) :
    R.Keeps (Expression.applyFilter Filter.standard c v a) R.Has := by
  unfold Expression.applyFilter
  split
  · exact .fail _
  · rename_i f hf
    refine .bind (keeps_argument h _) fun argument hargument => ?_
    rcases Filter.standard_cases R hf ha with ⟨-, hseals⟩ | ⟨-, -, hpasses⟩ | ⟨-, rfl⟩
    · exact (hseals v argument hv hargument).mono fun v' hv' => hv'.1
    · exact (hpasses v argument hv hargument).mono fun v' hv' => hv'.1
    · exact (Filter.keeps_join hv argument).mono fun v' hv' => hv'.1

/-- **The value of an expression** lies in the region, apart from the mark of a safe text. -/
theorem keeps_resolve (h : R.PlainScopes c) (he : e.MarksNothing) :
    R.Keeps (e.resolve Filter.standard c) R.Has :=
  .bind (keeps_resolveOrNone h _) fun _ hv => .foldlM hv.1 fun _ hv a ha =>
    keeps_applyFilter h (he a ha) hv

end Region

/-! ## 2. Leaks -/

/-- The filter is a `join` that puts something untamed between the characters of a safe text. -/
def Application.Injects (a : Application) (c : Scopes) (v : Value) (s : Store) : Prop :=
  a.name = "join" ∧ ∃ operand w s', a.argument = some operand ∧
    operand.resolveOrNone c s = .ok w s' ∧ Filter.Injects v w s'

namespace Expression

/-- The expression with some filters in place of its own. -/
def withFilters (e : Expression) (done : List Application) : Expression :=
  { e with filters := done }

/-- **The expression leaks**: one of its filters injects something into what the filters before it
give, and all filters behind that let it through. -/
def Leaks (filters : Table Filter) (c : Scopes) (e : Expression) (s : Store) : Prop :=
  ∃ done a rest v s', e.filters = done ++ a :: rest ∧
    (e.withFilters done).resolve filters c s = .ok v s' ∧ a.Injects c v s' ∧
    ∀ b ∈ rest, b.name ∈ Filter.passing

variable {filters : Table Filter} {done : List Application}

theorem not_leaks_nil : ¬(e.withFilters []).Leaks filters c s := by
  rintro ⟨done, a, rest, v, s', hsplit, -⟩
  exact absurd hsplit.symm (List.append_ne_nil_of_right_ne_nil done (List.cons_ne_nil a rest))

/-- An expression with one filter more. -/
theorem resolve_concat : (e.withFilters (done ++ [a])).resolve filters c s = .ok v' s' ↔
    ∃ v s₁, (e.withFilters done).resolve filters c s = .ok v s₁ ∧
      applyFilter filters c v a s₁ = .ok v' s' := by
  have hfold : ∀ v, (done ++ [a]).foldlM (applyFilter filters c) v =
      done.foldlM (applyFilter filters c) v >>= fun v => applyFilter filters c v a := by
    intro v
    rw [List.foldlM_append]
    refine bind_congr fun v => ?_
    rw [List.foldlM_cons]
    exact bind_pure _
  have hresolve : (e.withFilters (done ++ [a])).resolve filters c =
      (e.withFilters done).resolve filters c >>= fun v => applyFilter filters c v a := by
    unfold resolve
    rw [bind_assoc]
    exact bind_congr hfold
  rw [hresolve]
  exact bind_eq_ok

/-- It leaks if the last filter injects something, or lets through what has leaked before. -/
theorem leaks_concat : (e.withFilters (done ++ [a])).Leaks filters c s ↔
    (∃ v s', (e.withFilters done).resolve filters c s = .ok v s' ∧ a.Injects c v s') ∨
      ((e.withFilters done).Leaks filters c s ∧ a.name ∈ Filter.passing) := by
  constructor
  · rintro ⟨front, b, rest, v, s', hsplit, hv, hinjects, hrest⟩
    have hsplit' : done ++ [a] = front ++ b :: rest := hsplit
    rcases List.eq_nil_or_concat rest with rfl | ⟨rest', last, rfl⟩
    · obtain ⟨rfl, hlast⟩ := List.append_inj' hsplit' rfl
      injection hlast with hab
      subst hab
      exact .inl ⟨v, s', hv, hinjects⟩
    · rw [List.concat_eq_append, ← List.cons_append, ← List.append_assoc] at hsplit'
      obtain ⟨rfl, hlast⟩ := List.append_inj' hsplit' rfl
      injection hlast with hab
      subst hab
      rw [List.concat_eq_append] at hrest
      obtain ⟨hrest, hlast⟩ := List.forall_mem_append.mp hrest
      exact .inr ⟨⟨front, b, rest', v, s', rfl, hv, hinjects, hrest⟩, hlast a List.mem_cons_self⟩
  · rintro (⟨v, s', hv, hinjects⟩ | ⟨⟨front, b, rest, v, s', hsplit, hv, hinjects, hrest⟩, ha⟩)
    · exact ⟨done, a, [], v, s', rfl, hv, hinjects, fun b hb => absurd hb List.not_mem_nil⟩
    · have hsplit' : done = front ++ b :: rest := hsplit
      refine ⟨front, b, rest ++ [a], v, s', ?_, hv, hinjects, ?_⟩
      · rw [hsplit', List.append_assoc, List.cons_append]
        rfl
      · exact List.forall_mem_append.mpr ⟨hrest, List.forall_mem_singleton.mpr ha⟩

end Expression

/-! ## 3. What leaks and what does not -/

namespace Region.Holds

/-- **One filter**: what it gives is sound, unless it injects something, or lets through what was
unsound before. -/
theorem applyFilter_sound_iff (hs : R.Holds s) (hc : R.PlainScopes c) (ha : a.name ≠ "safe")
    (hv : R.Has v) (h : Expression.applyFilter Filter.standard c v a s = .ok v' s') :
    v'.Sound ↔ ¬a.Injects c v s ∧ (a.name ∈ Filter.passing → v.Sound) := by
  unfold Expression.applyFilter at h
  cases hf : Filter.standard.find? a.name with
  | none =>
    rw [hf] at h
    cases h
  | some f =>
    rw [hf] at h
    obtain ⟨argument, s₁, hresolved, h⟩ := bind_eq_ok.mp h
    obtain ⟨hs₁, hargument⟩ := (keeps_argument hc a.argument s hs).1 argument s₁ hresolved
    rcases Filter.standard_cases R hf ha with ⟨hname, hseals⟩ | ⟨hname, hjoin, hpasses⟩ |
      ⟨hjoin, rfl⟩
    · have hsound := ((hseals v argument hv hargument s₁ hs₁).1 v' s' h).2.2
      refine ⟨fun _ => ⟨?_, fun hpassing => absurd hpassing hname⟩, fun _ => hsound.mpr trivial⟩
      rintro ⟨hjoin, -⟩
      rw [hjoin] at hname
      exact hname (by decide)
    · have hsound := ((hpasses v argument hv hargument s₁ hs₁).1 v' s' h).2.2
      rw [hsound]
      refine ⟨fun hv => ⟨fun hinjects => hjoin hinjects.1, fun _ => hv⟩, fun h => h.2 hname⟩
    · have hpassing : a.name ∈ Filter.passing := by
        rw [hjoin]
        decide
      cases hargs : a.argument with
      | none =>
        rw [hargs] at hresolved
        cases hresolved
        cases h
      | some operand =>
        rw [hargs] at hresolved
        obtain ⟨w, s₂, hw, hpure⟩ := bind_eq_ok.mp hresolved
        cases hpure
        rw [Filter.join_sound_iff hs₁ hv h]
        have hinjects : a.Injects c v s ↔ Filter.Injects v w s₁ := by
          constructor
          · rintro ⟨-, operand', w', s'', hargs', hw', hinjects⟩
            cases hargs.symm.trans hargs'
            cases hw.symm.trans hw'
            exact hinjects
          · exact fun hinjects => ⟨hjoin, operand, w, s₁, hargs, hw, hinjects⟩
        rw [hinjects]
        exact ⟨fun ⟨hv, hnot⟩ => ⟨hnot, fun _ => hv⟩, fun ⟨hnot, hv⟩ => ⟨hv hpassing, hnot⟩⟩

/-- **What an expression gives is sound, unless the expression leaks.** -/
theorem resolve_sound_iff (hs : R.Holds s) (hc : R.PlainScopes c) (he : e.MarksNothing)
    (h : e.resolve Filter.standard c s = .ok v s') :
    v.Sound ↔ ¬e.Leaks Filter.standard c s := by
  -- one more filter in each step; those before it are looked at as an expression of their own
  have hfilters : ∀ (n : Nat) (done : List Application), done.length = n →
      (∀ a ∈ done, a.name ≠ "safe") → ∀ v s',
        (e.withFilters done).resolve Filter.standard c s = .ok v s' →
          (v.Sound ↔ ¬(e.withFilters done).Leaks Filter.standard c s) := by
    intro n
    induction n with
    | zero =>
      intro done hn _ v s' h
      obtain rfl := List.length_eq_zero_iff.mp hn
      obtain ⟨base, s₁, hbase, hpure⟩ := bind_eq_ok.mp h
      cases hpure
      have hplain := ((keeps_resolveOrNone hc e.base s hs).1 v s' hbase).2
      exact ⟨fun _ => Expression.not_leaks_nil, fun _ => Value.sound_of_not_safe hplain.2⟩
    | succ n ih =>
      intro done hn hdone v' s' h
      rcases List.eq_nil_or_concat done with rfl | ⟨front, a, rfl⟩
      · cases hn
      · rw [List.concat_eq_append] at *
        obtain ⟨hfront, hlast⟩ := List.forall_mem_append.mp hdone
        have ha := hlast a List.mem_cons_self
        obtain ⟨v, s₁, hv, hstep⟩ := Expression.resolve_concat.mp h
        have hlength : front.length = n := by
          rw [List.length_append] at hn
          exact Nat.succ.inj hn
        have hsound := ih front hlength hfront v s₁ hv
        obtain ⟨hs₁, hhas⟩ := (keeps_resolve (e := e.withFilters front) hc hfront s hs).1 v s₁ hv
        have hinjects : (∃ v s', (e.withFilters front).resolve Filter.standard c s = .ok v s' ∧
            a.Injects c v s') ↔ a.Injects c v s₁ := by
          constructor
          · rintro ⟨w, s₂, hw, hinjects⟩
            cases hv.symm.trans hw
            exact hinjects
          · exact fun hinjects => ⟨v, s₁, hv, hinjects⟩
        rw [applyFilter_sound_iff hs₁ hc ha hhas hstep, Expression.leaks_concat, hinjects, hsound,
          not_or, not_and']
  exact hfilters e.filters.length e.filters rfl he v s' h

end Region.Holds
end TextTemplate
