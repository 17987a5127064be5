/-
# Outcomes of computations

Compilations, evaluations and runs are computations with a state that may fail.  These lemmas give
the outcome of such a computation from the outcomes of its parts, and back (`bind_eq_ok`,
`bind_eq_error`).
-/

namespace TextTemplate.Outcome

variable {ε σ α β : Type} {x : EStateM ε σ α} {y : α → EStateM ε σ β} {s s' s'' : σ} {a : α} {b : β}
  {e : ε}

theorem get_apply (s : σ) : (get : EStateM ε σ σ) s = .ok s s := rfl

theorem modify_apply (f : σ → σ) (s : σ) :
    (modify f : EStateM ε σ PUnit) s = .ok PUnit.unit (f s) := rfl

theorem modifyGet_apply (f : σ → α × σ) (s : σ) :
    (modifyGet f : EStateM ε σ α) s = .ok (f s).1 (f s).2 := rfl

theorem bind_of_ok (h : x s = .ok a s') : (x >>= y) s = y a s' := by
  simp only [Bind.bind, EStateM.bind, h]

theorem bind_of_error (h : x s = .error e s') : (x >>= y) s = .error e s' := by
  simp only [Bind.bind, EStateM.bind, h]

theorem map_of_ok {f : α → β} (h : x s = .ok a s') : (f <$> x) s = .ok (f a) s' := by
  simp only [Functor.map, EStateM.map, h]

theorem map_of_error {f : α → β} (h : x s = .error e s') : (f <$> x) s = .error e s' := by
  simp only [Functor.map, EStateM.map, h]

/-- **A row of two computations succeeds** where the first one does and the second one does
behind it. -/
theorem bind_eq_ok : (x >>= y) s = .ok b s'' ↔ ∃ a s', x s = .ok a s' ∧ y a s' = .ok b s'' := by
  cases h : x s with
  | ok a s' =>
    rw [bind_of_ok h]
    constructor
    · intro hy
      exact ⟨a, s', rfl, hy⟩
    · rintro ⟨a', t, hx, hy⟩
      cases hx
      exact hy
  | error e s' =>
    rw [bind_of_error h]
    constructor
    · intro hy
      cases hy
    · rintro ⟨a, t, hx, -⟩
      cases hx

/-- It fails where the first one does, or where the second one does behind it. -/
theorem bind_eq_error : (x >>= y) s = .error e s'' ↔
    x s = .error e s'' ∨ ∃ a s', x s = .ok a s' ∧ y a s' = .error e s'' := by
  cases h : x s with
  | ok a s' =>
    rw [bind_of_ok h]
    constructor
    · intro hy
      exact .inr ⟨a, s', rfl, hy⟩
    · rintro (hx | ⟨a', t, hx, hy⟩)
      · cases hx
      · cases hx
        exact hy
  | error e' s' =>
    rw [bind_of_error h]
    constructor
    · intro hy
      cases hy
      exact .inl rfl
    · rintro (hx | ⟨a, t, hx, -⟩)
      · cases hx
        rfl
      · cases hx

/-- What is read off the result of a computation is read off a result that it has. -/
theorem exists_of_run' {f : α → β} (h : (x.run' s).map f = some b) :
    ∃ a s', x s = .ok a s' ∧ f a = b := by
  have hrun : x.run' s = match x s with
    | .ok a _ => some a
    | .error .. => none := rfl
  rw [hrun] at h
  cases hx : x s with
  | ok a s' =>
    rw [hx] at h
    exact ⟨a, s', rfl, Option.some.inj h⟩
  | error e s' =>
    rw [hx] at h
    cases h

theorem tryCatch_of_ok {f : ε → EStateM ε σ α} (h : x s = .ok a s') :
    tryCatch x f s = .ok a s' := by
  have hcatch : tryCatch x f s = EStateM.tryCatch x f s := rfl
  rw [hcatch]
  delta EStateM.tryCatch
  simp only [h]

theorem tryCatch_of_error {f : ε → EStateM ε σ α} (h : x s = .error e s') :
    tryCatch x f s = f e s' := by
  have hcatch : tryCatch x f s = EStateM.tryCatch x f s := rfl
  rw [hcatch]
  delta EStateM.tryCatch
  simp only [h]
  rfl

/-- The same without a state. -/
theorem except_bind_eq_ok {x : Except ε α} {y : α → Except ε β} (h : (x >>= y) = .ok b) :
    ∃ a, x = .ok a ∧ y a = .ok b := by
  cases x with
  | error e => cases h
  | ok a => exact ⟨a, rfl, h⟩

theorem except_bind_eq_error {x : Except ε α} {y : α → Except ε β} (h : (x >>= y) = .error e) :
    x = .error e ∨ ∃ a, x = .ok a ∧ y a = .error e := by
  cases x with
  | error e' =>
    cases h
    exact .inl rfl
  | ok a => exact .inr ⟨a, rfl, h⟩

theorem except_map_eq_ok {x : Except ε α} {f : α → β} {b : β} (h : x.map f = .ok b) :
    ∃ a, x = .ok a ∧ f a = b := by
  cases x with
  | error e => cases h
  | ok a => exact ⟨a, rfl, Except.ok.inj h⟩

theorem except_map_eq_error {x : Except ε α} {f : α → β} (h : f <$> x = .error e) :
    x = .error e := by
  cases x with
  | error e' => exact congrArg Except.error (Except.error.inj h)
  | ok a => cases h

/-- What is found in a table is there. -/
theorem mem_of_lookup {κ : Type} [BEq κ] [LawfulBEq κ] {entries : List (κ × α)} {k : κ} {a : α}
    (h : entries.lookup k = some a) : (k, a) ∈ entries := by
  obtain ⟨before, after, hsplit, -⟩ := List.lookup_eq_some_iff.mp h
  rw [hsplit]
  exact List.mem_append_right before List.mem_cons_self

end TextTemplate.Outcome
