/-
# Computations that are alike

Two computations on values are alike if on stores that are alike they come out alike: both
succeed, with results that are related, or both fail, with errors that are related, and in either
case they leave stores that are alike.  Failing matters as much as succeeding, for a failure may
be caught, and the store stays as it is then.

* `LikeCause` and `LikeError` relate failures: the same wording, the same token and the same place;
* `Likeness.AlikeBy` relates computations, by a relation of errors and one of results; `Alike` is
  the usual case;
* there is one lemma for each way in which computations are put together.
-/
import TextTemplate.Proofs.Likeness.Stores
import TextTemplate.Proofs.Safety.Keeping

namespace TextTemplate

open TextTemplate.Outcome

/-! ## 1. Failures -/

/-- The cause holds no value. -/
def Cause.Closed : Cause → Prop
  | lookup .. | missingKey _ | raised .. => False
  | _ => True

namespace Correspondence

/-- Two causes are the same but for the references of the values in them. -/
inductive LikeCause (C : Correspondence) : Cause → Cause → Prop where
  | closed {cause : Cause} (closed : cause.Closed) : LikeCause C cause cause
  | lookup (segment : String) {v v' : Value} (like : C.Like v v') :
      LikeCause C (.lookup segment (.value v)) (.lookup segment (.value v'))
  | missingKey {v v' : Value} (like : C.Like v v') : LikeCause C (.missingKey v) (.missingKey v')
  | raised (kind : ErrorKind) {a a' : Option Value} (like : Option.Rel C.Like a a') :
      LikeCause C (.raised kind a) (.raised kind a')

/-- Two errors have causes that are alike, and the same attached to them. -/
structure LikeError (C : Correspondence) (e e' : Error) : Prop where
  cause : C.LikeCause e.cause e'.cause
  token : e.token = e'.token
  debug : e.debug = e'.debug

/-- Two errors are alike, or say both that a variable is missing: such errors are caught, and
what they say is not seen. -/
def LooseError (C : Correspondence) (e e' : Error) : Prop :=
  C.LikeError e e' ∨ (e.kind = .missingVariable ∧ e'.kind = .missingVariable)

/-- Two answers are alike: results that are related, or causes that are alike. -/
inductive LikeExcept (C : Correspondence) {α β : Type} (P : α → β → Prop) :
    Except Cause α → Except Cause β → Prop where
  | ok {a : α} {b : β} (like : P a b) : LikeExcept C P (.ok a) (.ok b)
  | error {c c' : Cause} (like : C.LikeCause c c') : LikeExcept C P (.error c) (.error c')

variable {C : Correspondence} {α β γ δ : Type} {P : α → β → Prop} {Q : γ → δ → Prop}

theorem LikeCause.kind_eq {c c' : Cause} (h : C.LikeCause c c') : c.kind = c'.kind := by
  cases h <;> rfl

theorem LikeError.kind_eq {e e' : Error} (h : C.LikeError e e') : e.kind = e'.kind :=
  h.cause.kind_eq

theorem LikeError.of {c c' : Cause} (h : C.LikeCause c c') : C.LikeError (.of c) (.of c') :=
  ⟨h, rfl, rfl⟩

theorem LooseError.kind_eq {e e' : Error} (h : C.LooseError e e') : e.kind = e'.kind := by
  rcases h with h | ⟨h, h'⟩
  · exact h.kind_eq
  · rw [h, h']

/-- The error that the caller's code raises about values that are alike. -/
theorem likeCause_raising (kind : ErrorKind) {a a' : Option Value} (h : Option.Rel C.Like a a') :
    C.LikeCause (.raising kind a) (.raising kind a') := by
  cases h with
  | none => cases kind with
    | missingVariable => exact .closed trivial
    | _ => exact .raised _ .none
  | some h => cases kind <;> exact .raised _ (.some h)

theorem LikeExcept.closed {cause : Cause} (h : cause.Closed) :
    C.LikeExcept P (.error cause) (.error cause) := .error (.closed h)

/-- The same answer on both sides, without a value in its cause. -/
theorem LikeExcept.same {x : Except Cause α} (h : ∀ c, x = .error c → c.Closed) :
    C.LikeExcept Eq x x := by
  cases x with
  | ok a => exact .ok rfl
  | error c => exact .closed (h c rfl)

theorem LikeExcept.bind {x : Except Cause α} {y : Except Cause β} {f : α → Except Cause γ}
    {g : β → Except Cause δ} (h : C.LikeExcept P x y)
    (hf : ∀ a b, P a b → C.LikeExcept Q (f a) (g b)) : C.LikeExcept Q (x >>= f) (y >>= g) := by
  cases h with
  | ok h => exact hf _ _ h
  | error h => exact .error h

theorem LikeExcept.map {x : Except Cause α} {y : Except Cause β} {f : α → γ} {g : β → δ}
    (h : C.LikeExcept P x y) (hf : ∀ a b, P a b → Q (f a) (g b)) :
    C.LikeExcept Q (x.map f) (y.map g) := by
  cases h with
  | ok h => exact .ok (hf _ _ h)
  | error h => exact .error h

end Correspondence

/-! ## 2. Computations -/

/-- Two results are alike. -/
inductive Likeness.SameResult (L : Likeness) {α β : Type} (E : Error → Error → Prop)
    (P : α → β → Prop) : EStateM.Result Error Store α → EStateM.Result Error Store β → Prop where
  | ok {s s' : Store} {a : α} {b : β} (holds : L.Holds s s') (like : P a b) :
      SameResult L E P (.ok a s) (.ok b s')
  | error {s s' : Store} {e e' : Error} (holds : L.Holds s s') (like : E e e') :
      SameResult L E P (.error e s) (.error e' s')

theorem Likeness.SameResult.mono {L : Likeness} {α β : Type} {E E' : Error → Error → Prop}
    {P P' : α → β → Prop} {r : EStateM.Result Error Store α} {r' : EStateM.Result Error Store β}
    (h : L.SameResult E P r r') (hE : ∀ e e', E e e' → E' e e') (hP : ∀ a b, P a b → P' a b) :
    L.SameResult E' P' r r' := by
  cases h with
  | ok holds like => exact .ok holds (hP _ _ like)
  | error holds like => exact .error holds (hE _ _ like)

/-- On stores that are alike two computations have results that are alike. -/
def Likeness.AlikeBy (L : Likeness) {α β : Type} (E : Error → Error → Prop) (P : α → β → Prop)
    (x : Eval α) (y : Eval β) : Prop := ∀ s s', L.Holds s s' → L.SameResult E P (x s) (y s')

/-- The same, with errors that are alike. -/
abbrev Likeness.Alike (L : Likeness) {α β : Type} (P : α → β → Prop) (x : Eval α) (y : Eval β) :
    Prop := L.AlikeBy L.LikeError P x y

namespace Likeness.AlikeBy

variable {L : Likeness} {α β γ δ : Type} {E E' : Error → Error → Prop} {P : α → β → Prop}
  {Q : γ → δ → Prop} {x : Eval α} {y : Eval β} {f : α → Eval γ} {g : β → Eval δ}

theorem weaken (h : L.AlikeBy E P x y) (hE : ∀ e e', E e e' → E' e e') : L.AlikeBy E' P x y :=
  fun s s' hs => (h s s' hs).mono hE fun _ _ hP => hP

/-- With errors that are alike, and so in any case. -/
theorem loosen (h : L.Alike P x y) : L.AlikeBy L.LooseError P x y := h.weaken fun _ _ => .inl

theorem pure {a : α} {b : β} (h : P a b) : L.AlikeBy E P (Pure.pure a) (Pure.pure b) :=
  fun _ _ hs => .ok hs h

theorem throw {e e' : Error} (h : E e e') :
    L.AlikeBy E P (MonadExcept.throw e) (MonadExcept.throw e') :=
  fun _ _ hs => .error hs h

theorem fail {c c' : Cause} (h : L.LikeCause c c') : L.Alike P (Eval.fail c) (Eval.fail c') :=
  throw (.of h)

/-- A failure whose cause holds no value. -/
theorem failClosed {c : Cause} (h : c.Closed) : L.Alike P (Eval.fail c) (Eval.fail c) :=
  fail (.closed h)

/-- **One computation after another.** -/
theorem bind (hx : L.AlikeBy E P x y) (hf : ∀ a b, P a b → L.AlikeBy E Q (f a) (g b)) :
    L.AlikeBy E Q (x >>= f) (y >>= g) := by
  intro s s' hs
  cases hx' : x s with
  | ok a t =>
    cases hy' : y s' with
    | ok b t' =>
      have h := hx s s' hs
      rw [hx', hy'] at h
      cases h with
      | ok holds like =>
        rw [bind_of_ok hx', bind_of_ok hy']
        exact hf a b like t t' holds
    | error e' t' =>
      have h := hx s s' hs
      rw [hx', hy'] at h
      cases h
  | error e t =>
    cases hy' : y s' with
    | ok b t' =>
      have h := hx s s' hs
      rw [hx', hy'] at h
      cases h
    | error e' t' =>
      have h := hx s s' hs
      rw [hx', hy'] at h
      cases h with
      | error holds like =>
        rw [bind_of_error hx', bind_of_error hy']
        exact .error holds like

theorem get : L.AlikeBy E L.Holds (MonadState.get : Eval Store) (MonadState.get : Eval Store) :=
  fun _ _ hs => .ok hs hs

theorem set {s s' : Store} (hs : L.Holds s s') {P : PUnit → PUnit → Prop} (hP : P ⟨⟩ ⟨⟩) :
    L.AlikeBy E P (MonadStateOf.set s : Eval PUnit) (MonadStateOf.set s' : Eval PUnit) :=
  fun _ _ _ => .ok hs hP

theorem read {f : Store → Except Cause α} {g : Store → Except Cause β}
    (h : ∀ s s', L.Holds s s' → L.LikeExcept P (f s) (g s')) :
    L.Alike P (Eval.read f) (Eval.read g) := by
  intro s s' hs
  cases hf : f s with
  | ok a =>
    cases hg : g s' with
    | ok b =>
      have hh := h s s' hs
      rw [hf, hg] at hh
      cases hh with
      | ok like =>
        rw [Eval.read_of_ok hf, Eval.read_of_ok hg]
        exact .ok hs like
    | error c' =>
      have hh := h s s' hs
      rw [hf, hg] at hh
      cases hh
  | error c =>
    cases hg : g s' with
    | ok b =>
      have hh := h s s' hs
      rw [hf, hg] at hh
      cases hh
    | error c' =>
      have hh := h s s' hs
      rw [hf, hg] at hh
      cases hh with
      | error like =>
        rw [Eval.read_of_error hf, Eval.read_of_error hg]
        exact .error hs (.of like)

theorem make {f : Store → α × Store} {g : Store → β × Store}
    (h : ∀ s s', L.Holds s s' → L.Holds (f s).2 (g s').2 ∧ P (f s).1 (g s').1) :
    L.AlikeBy E P (Eval.make f) (Eval.make g) := by
  intro s s' hs
  obtain ⟨hs', hP⟩ := h s s' hs
  exact .ok hs' hP

theorem tryCatch {h : Error → Eval α} {k : Error → Eval β} (hx : L.AlikeBy E P x y)
    (hh : ∀ e e', E e e' → L.AlikeBy E' P (h e) (k e')) :
    L.AlikeBy E' P (MonadExcept.tryCatch x h) (MonadExcept.tryCatch y k) := by
  intro s s' hs
  have hr := hx s s' hs
  cases hx' : x s with
  | ok a t =>
    cases hy' : y s' with
    | ok b t' =>
      rw [hx', hy'] at hr
      cases hr with
      | ok holds like =>
        rw [tryCatch_of_ok hx', tryCatch_of_ok hy']
        exact .ok holds like
    | error e' t' => rw [hx', hy'] at hr; cases hr
  | error e t =>
    cases hy' : y s' with
    | ok b t' => rw [hx', hy'] at hr; cases hr
    | error e' t' =>
      rw [hx', hy'] at hr
      cases hr with
      | error holds like =>
        rw [tryCatch_of_error hx', tryCatch_of_error hy']
        exact hh e e' like t t' holds

/-- Errors of some kinds are let through on both sides, and the others are related as before, or
by another relation. -/
theorem unlessBy {passes : ErrorKind → Bool} (hx : L.AlikeBy E P x y)
    (hE : ∀ e e', E e e' → e.kind = e'.kind ∧ (passes e.kind = false → E' e e')) :
    L.AlikeBy E' (Option.Rel P) (Eval.unless passes x) (Eval.unless passes y) := by
  have hsome : L.AlikeBy E (Option.Rel P) (some <$> x) (some <$> y) := by
    rw [map_eq_pure_bind, map_eq_pure_bind]
    exact hx.bind fun a b hab => .pure (.some hab)
  refine hsome.tryCatch fun e e' he => ?_
  obtain ⟨hkind, hstay⟩ := hE e e' he
  rw [← hkind]
  split
  · exact .pure .none
  · rename_i hp
    exact .throw (hstay (Bool.eq_false_iff.mpr hp))

theorem «unless» {passes : ErrorKind → Bool} (hx : L.Alike P x y) :
    L.Alike (Option.Rel P) (Eval.unless passes x) (Eval.unless passes y) :=
  hx.unlessBy fun _ _ he => ⟨he.kind_eq, fun _ => he⟩

theorem mapM {R : γ → δ → Prop} {f : γ → Eval α} {g : δ → Eval β} {xs : List γ} {ys : List δ}
    (h : List.Forall₂ R xs ys) (hf : ∀ a b, R a b → L.AlikeBy E P (f a) (g b)) :
    L.AlikeBy E (List.Forall₂ P) (xs.mapM f) (ys.mapM g) := by
  induction h with
  | nil => exact .pure .nil
  | cons hab _ ih =>
    rw [List.mapM_cons, List.mapM_cons]
    exact (hf _ _ hab).bind fun a b h => ih.bind fun as bs hs => .pure (.cons h hs)

theorem foldlM {R : γ → δ → Prop} {f : α → γ → Eval α} {g : β → δ → Eval β} {xs : List γ}
    {ys : List δ} (h : List.Forall₂ R xs ys) {a : α} {b : β} (hab : P a b)
    (hf : ∀ a b c d, P a b → R c d → L.AlikeBy E P (f a c) (g b d)) :
    L.AlikeBy E P (xs.foldlM f a) (ys.foldlM g b) := by
  induction h generalizing a b with
  | nil => exact .pure hab
  | cons hcd _ ih =>
    rw [List.foldlM_cons, List.foldlM_cons]
    exact (hf a b _ _ hab hcd).bind fun a' b' h => ih h

end Likeness.AlikeBy
end TextTemplate
