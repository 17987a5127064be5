/-
# Computations that keep a region

A computation on values keeps a region if it leaves no safe text in it, whether it succeeds or
fails, and gives results with some property where it succeeds.  Failing matters as much as
succeeding, for a failure may be caught, and the store stays as it is then.

There is one lemma for each way in which computations are put together.
-/
import TextTemplate.Proofs.Outcome
import TextTemplate.Proofs.Safety.Region

namespace TextTemplate

open TextTemplate.Outcome

/-! ## 1. Reading and catching -/

namespace Eval

variable {α : Type} {f : Store → Except Cause α} {x : Eval α} {passes : ErrorKind → Bool}
  {s s' : Store} {a : α} {e : Error}

theorem read_of_ok (h : f s = .ok a) : Eval.read f s = .ok a s := by
  unfold Eval.read
  rw [bind_of_ok (get_apply s), h]
  rfl

theorem read_of_error {cause : Cause} (h : f s = .error cause) :
    Eval.read f s = .error (Error.of cause) s := by
  unfold Eval.read
  rw [bind_of_ok (get_apply s), h]
  rfl

/-- Reading leaves the store as it is. -/
theorem read_eq_ok (h : Eval.read f s = .ok a s') : f s = .ok a ∧ s' = s := by
  cases hf : f s with
  | ok a' =>
    cases h.symm.trans (read_of_ok hf)
    exact ⟨rfl, rfl⟩
  | error cause => cases h.symm.trans (read_of_error hf)

theorem unless_of_ok (h : x s = .ok a s') : Eval.unless passes x s = .ok (some a) s' :=
  tryCatch_of_ok (bind_of_ok h)

theorem unless_of_error (h : x s = .error e s') (he : passes e.kind = false) :
    Eval.unless passes x s = .error e s' := by
  refine (tryCatch_of_error (bind_of_error h)).trans ?_
  rw [he]
  rfl

/-- An error that is let through is no answer. -/
theorem unless_of_passes (h : x s = .error e s') (he : passes e.kind = true) :
    Eval.unless passes x s = .ok none s' := by
  refine (tryCatch_of_error (bind_of_error h)).trans ?_
  rw [he]
  rfl

end Eval

/-! ## 2. Keeping -/

/-- The computation keeps the region, and its results have a property. -/
def Region.Keeps {α : Type} (R : Region) (x : Eval α) (Q : α → Prop) : Prop :=
  ∀ s, R.Holds s → (∀ a s', x s = .ok a s' → R.Holds s' ∧ Q a) ∧
    ∀ e s', x s = .error e s' → R.Holds s'

namespace Region.Keeps

variable {R : Region} {α β : Type} {x : Eval α} {f : α → Eval β} {Q Q' : α → Prop} {P : β → Prop}

theorem mono (h : R.Keeps x Q) (hQ : ∀ a, Q a → Q' a) : R.Keeps x Q' := by
  intro s hs
  refine ⟨fun a s' hx => ?_, (h s hs).2⟩
  obtain ⟨hs', ha⟩ := (h s hs).1 a s' hx
  exact ⟨hs', hQ a ha⟩

theorem pure {a : α} (h : Q a) : R.Keeps (Pure.pure a) Q := by
  intro s hs
  constructor
  · intro a' s' hx
    cases hx
    exact ⟨hs, h⟩
  · intro e s' hx
    cases hx

theorem throw (e : Error) : R.Keeps (MonadExcept.throw e : Eval α) Q := by
  intro s hs
  constructor
  · intro a s' hx
    cases hx
  · intro e' s' hx
    cases hx
    exact hs

theorem fail (cause : Cause) : R.Keeps (Eval.fail cause : Eval α) Q := throw _

/-- **One computation after another.** -/
theorem bind (hx : R.Keeps x Q) (hf : ∀ a, Q a → R.Keeps (f a) P) : R.Keeps (x >>= f) P := by
  intro s hs
  obtain ⟨hok, herror⟩ := hx s hs
  constructor
  · intro b s'' h
    obtain ⟨a, s', ha, hb⟩ := bind_eq_ok.mp h
    obtain ⟨hs', hQ⟩ := hok a s' ha
    exact (hf a hQ s' hs').1 b s'' hb
  · intro e s'' h
    rcases bind_eq_error.mp h with h | ⟨a, s', ha, h⟩
    · exact herror e s'' h
    · obtain ⟨hs', hQ⟩ := hok a s' ha
      exact (hf a hQ s' hs').2 e s'' h

theorem get : R.Keeps (MonadState.get : Eval Store) R.Holds := by
  intro s hs
  constructor
  · intro a s' h
    rw [get_apply] at h
    cases h
    exact ⟨hs, hs⟩
  · intro e s' h
    rw [get_apply] at h
    cases h

theorem set {s : Store} {Q : PUnit → Prop} (hs : R.Holds s) (hQ : Q ⟨⟩) :
    R.Keeps (MonadStateOf.set s : Eval PUnit) Q := by
  intro s₀ _
  constructor
  · intro a s' h
    cases h
    exact ⟨hs, hQ⟩
  · intro e s' h
    cases h

theorem read {f : Store → Except Cause α} (h : ∀ s a, R.Holds s → f s = .ok a → Q a) :
    R.Keeps (Eval.read f) Q := by
  refine bind get fun s hs => ?_
  cases hf : f s with
  | ok a => exact pure (h s a hs hf)
  | error cause => exact fail cause

theorem make {f : Store → α × Store} (h : ∀ s, R.Holds s → R.Holds (f s).2 ∧ Q (f s).1) :
    R.Keeps (Eval.make f) Q := by
  intro s hs
  constructor
  · intro a s' hx
    rw [Eval.make, modifyGet_apply] at hx
    cases hx
    exact h s hs
  · intro e s' hx
    rw [Eval.make, modifyGet_apply] at hx
    cases hx

theorem tryCatch {handle : Error → Eval α} (hx : R.Keeps x Q) (hh : ∀ e, R.Keeps (handle e) Q) :
    R.Keeps (MonadExcept.tryCatch x handle) Q := by
  intro s hs
  obtain ⟨hok, herror⟩ := hx s hs
  cases h : x s with
  | ok a s' =>
    rw [tryCatch_of_ok h]
    exact ⟨fun a' s'' h' => hok a' s'' (h.trans h'), fun e s'' h' => by cases h'⟩
  | error e s' =>
    rw [tryCatch_of_error h]
    exact hh e s' (herror e s' h)

/-- An answer, or nothing. -/
theorem «unless» {passes : ErrorKind → Bool} (hx : R.Keeps x Q) :
    R.Keeps (Eval.unless passes x) fun o => ∀ a, o = some a → Q a := by
  refine tryCatch (bind hx fun a ha => pure ?_) fun e => ?_
  · rintro a' ⟨⟩
    exact ha
  · split
    · exact pure fun a ha => by cases ha
    · exact throw e

theorem mapM {g : α → Eval β} : ∀ {as : List α}, (∀ a ∈ as, R.Keeps (g a) P) →
    R.Keeps (as.mapM g) fun bs => ∀ b ∈ bs, P b
  | [], _ => by
    rw [List.mapM_nil]
    exact pure fun b hb => absurd hb List.not_mem_nil
  | a :: as, h => by
    obtain ⟨ha, has⟩ := List.forall_mem_cons.mp h
    rw [List.mapM_cons]
    exact bind ha fun b hb => bind (mapM has) fun bs hbs =>
      pure (List.forall_mem_cons.mpr ⟨hb, hbs⟩)

theorem foldlM {g : β → α → Eval β} : ∀ {as : List α} {b : β}, P b →
    (∀ b, P b → ∀ a ∈ as, R.Keeps (g b a) P) → R.Keeps (as.foldlM g b) P
  | [], b, hb, _ => pure hb
  | a :: as, b, hb, h => by
    rw [List.foldlM_cons]
    exact bind (h b hb a List.mem_cons_self) fun b' hb' =>
      foldlM hb' fun b hb a ha => h b hb a (List.mem_cons_of_mem _ ha)

end Region.Keeps
end TextTemplate
