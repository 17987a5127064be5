/-
# Stores that are alike

Two stores are alike if what a correspondence pairs holds the same in both, and if whatever is
made next in one is paired with what is made next in the other.  So the correspondence stays as it
is while a template runs; it has room for everything that is made later.

* `Likeness` is a correspondence together with what is known of the rest of the stores, which no
  value leads to;
* `Likeness.Holds` says that two stores are alike;
* each change that values allow keeps stores alike (`Holds.setDict` and so on).
-/
import TextTemplate.Proofs.Likeness.Basic

namespace TextTemplate

open Relator

/-! ## 1. Arrays -/

/-- Two arrays hold the same at paired places, and their next places are paired.  A place behind
the end holds `d`. -/
structure Paired {α : Type} (R F : Nat → Nat → Prop) (P : α → α → Prop) (d : α)
    (xs xs' : Array α) : Prop where
  contents : ∀ {r r' : Nat}, R r r' → P (xs[r]?.getD d) (xs'[r']?.getD d)
  fresh : ∀ i, F (xs.size + i) (xs'.size + i)

namespace Paired

variable {α : Type} {R F : Nat → Nat → Prop} {P : α → α → Prop} {d x x' : α} {xs xs' : Array α}
  {r r' : Nat}

/-- Of paired places, both lie in the arrays or none does. -/
theorem lt_iff (h : Paired R F P d xs xs') (hR : BiUnique R) (hF : ∀ {r r'}, F r r' → R r r')
    (hr : R r r') : r < xs.size ↔ r' < xs'.size := by
  constructor
  · intro hlt
    by_contra hge
    obtain ⟨i, rfl⟩ := Nat.exists_eq_add_of_le (Nat.le_of_not_lt hge)
    have := hR.1 hr (hF (h.fresh i))
    omega
  · intro hlt
    by_contra hge
    obtain ⟨i, rfl⟩ := Nat.exists_eq_add_of_le (Nat.le_of_not_lt hge)
    have := hR.2 hr (hF (h.fresh i))
    omega

theorem getD_setIfInBounds (xs : Array α) (r k : Nat) (x d : α) :
    (xs.setIfInBounds r x)[k]?.getD d = if r = k ∧ k < xs.size then x else xs[k]?.getD d := by
  rw [Array.getElem?_setIfInBounds]
  by_cases hk : r = k
  · by_cases hlt : r < xs.size
    · rw [if_pos hk, if_pos hlt, if_pos ⟨hk, hk ▸ hlt⟩]
      rfl
    · rw [if_pos hk, if_neg hlt, if_neg fun h => hlt (hk ▸ h.2),
        Array.getElem?_eq_none (Nat.le_of_not_lt (hk ▸ hlt))]
  · rw [if_neg hk, if_neg fun h => hk h.1]

/-- A change at paired places. -/
theorem set (h : Paired R F P d xs xs') (hR : BiUnique R) (hF : ∀ {r r'}, F r r' → R r r')
    (hr : R r r') (hx : P x x') :
    Paired R F P d (xs.setIfInBounds r x) (xs'.setIfInBounds r' x') where
  contents := by
    intro k k' hk
    rw [getD_setIfInBounds, getD_setIfInBounds]
    have hsame : (r = k ∧ k < xs.size) ↔ (r' = k' ∧ k' < xs'.size) :=
      and_congr (Correspondence.eq_iff_of_unique hR hr hk) (h.lt_iff hR hF hk)
    by_cases hs : r = k ∧ k < xs.size
    · rw [if_pos hs, if_pos (hsame.mp hs)]
      exact hx
    · rw [if_neg hs, if_neg (mt hsame.mpr hs)]
      exact h.contents hk
  fresh i := by
    simp only [Array.size_setIfInBounds]
    exact h.fresh i

/-- Changes at places that are not paired with any. -/
theorem set_hidden (h : Paired R F P d xs xs') (hr : ∀ k, ¬ R r k) (hr' : ∀ k, ¬ R k r') :
    Paired R F P d (xs.setIfInBounds r x) (xs'.setIfInBounds r' x') where
  contents := by
    intro k k' hk
    have hne : ¬ (r = k ∧ k < xs.size) := fun e => hr k' (e.1 ▸ hk)
    have hne' : ¬ (r' = k' ∧ k' < xs'.size) := fun e => hr' k (e.1 ▸ hk)
    rw [getD_setIfInBounds, getD_setIfInBounds, if_neg hne, if_neg hne']
    exact h.contents hk
  fresh i := by
    simp only [Array.size_setIfInBounds]
    exact h.fresh i

/-- One more item on both sides. -/
theorem push (h : Paired R F P d xs xs') (hR : BiUnique R) (hF : ∀ {r r'}, F r r' → R r r')
    (hx : P x x') : Paired R F P d (xs.push x) (xs'.push x') where
  contents := by
    intro k k' hk
    have hnew : R xs.size xs'.size := hF (h.fresh 0)
    rw [Array.getElem?_push, Array.getElem?_push]
    by_cases hs : k = xs.size
    · rw [if_pos hs, if_pos ((Correspondence.eq_iff_of_unique hR hk hnew).mp hs)]
      exact hx
    · rw [if_neg hs, if_neg (mt (Correspondence.eq_iff_of_unique hR hk hnew).mpr hs)]
      exact h.contents hk
  fresh i := by
    simp only [Array.size_push, Nat.add_assoc]
    exact h.fresh (1 + i)

end Paired

/-! ## 2. Stores -/

theorem Store.dict_setDict (s : Store) (q r : Ref) (d : Dict) :
    (s.setDict q d).dict r = if q = r ∧ r < s.dicts.size then d else s.dict r :=
  Paired.getD_setIfInBounds s.dicts q r d []

theorem Store.dict_newDict {s : Store} {r : Ref} (h : r < s.dicts.size) (d : Dict) :
    (s.newDict d).2.dict r = s.dict r := by
  unfold Store.dict Store.newDict
  dsimp only
  rw [Array.getElem?_push, if_neg (Nat.ne_of_lt h)]

/-- A correspondence between two stores, with something that holds of the rest of them: what is
changed and made through values does not touch it. -/
structure Likeness extends Correspondence where
  rest : Store → Store → Prop
  rest_setList : ∀ {s s' r r' items items'}, rest s s' → lists r r' →
    toCorrespondence.LikeItems items items' → rest (s.setList r items) (s'.setList r' items')
  rest_setDict : ∀ {s s' r r' d d'}, rest s s' → dicts r r' → toCorrespondence.LikeDict d d' →
    rest (s.setDict r d) (s'.setDict r' d')
  rest_newList : ∀ {s s' items items'}, rest s s' → toCorrespondence.LikeItems items items' →
    rest (s.newList items).2 (s'.newList items').2
  rest_newTuple : ∀ {s s' items items'}, rest s s' → toCorrespondence.LikeItems items items' →
    rest (s.newTuple items).2 (s'.newTuple items').2
  rest_newDict : ∀ {s s' d d'}, rest s s' → toCorrespondence.LikeDict d d' →
    rest (s.newDict d).2 (s'.newDict d').2
  rest_newIdentity : ∀ {s s'}, rest s s' → rest s.newIdentity.2 s'.newIdentity.2

/-- Two stores are alike. -/
structure Likeness.Holds (L : Likeness) (s s' : Store) : Prop where
  lists : Paired L.rows L.lists L.LikeItems [] s.lists s'.lists
  tuples : Paired L.tuples L.tuples L.LikeItems [] s.tuples s'.tuples
  dicts : Paired L.mappings L.dicts L.LikeDict [] s.dicts s'.dicts
  objects : ∀ {r r'}, L.objects r r' → L.LikeObject (s.object r) (s'.object r')
  identities : ∀ i, L.identities (s.identities + i) (s'.identities + i)
  depth : s.depth = s'.depth
  rest : L.rest s s'

namespace Likeness.Holds

variable {L : Likeness} {s s' : Store} {r r' : Ref}

/-- Lists that are paired have the same items. -/
theorem list (h : L.Holds s s') (hr : L.rows r r') : L.LikeItems (s.list r) (s'.list r') :=
  h.lists.contents hr

theorem tuple (h : L.Holds s s') (hr : L.tuples r r') : L.LikeItems (s.tuple r) (s'.tuple r') :=
  h.tuples.contents hr

theorem dict (h : L.Holds s s') (hr : L.mappings r r') : L.LikeDict (s.dict r) (s'.dict r') :=
  h.dicts.contents hr

/-- A changed list. -/
theorem setList (h : L.Holds s s') (hr : L.lists r r') {items items' : List Value}
    (hi : L.LikeItems items items') : L.Holds (s.setList r items) (s'.setList r' items') where
  lists := h.lists.set L.rows_unique L.rows_of_lists (L.rows_of_lists hr) hi
  tuples := h.tuples
  dicts := h.dicts
  objects := h.objects
  identities := h.identities
  depth := by
    have := h.depth
    simp only [Store.depth, Store.setList, Array.size_setIfInBounds] at this ⊢
    exact this
  rest := L.rest_setList h.rest hr hi

/-- A changed mapping. -/
theorem setDict (h : L.Holds s s') (hr : L.dicts r r') {d d' : Dict} (hd : L.LikeDict d d') :
    L.Holds (s.setDict r d) (s'.setDict r' d') where
  lists := h.lists
  tuples := h.tuples
  dicts := h.dicts.set L.mappings_unique L.mappings_of_dicts (L.mappings_of_dicts hr) hd
  objects := h.objects
  identities := h.identities
  depth := by
    have := h.depth
    simp only [Store.depth, Store.setDict, Array.size_setIfInBounds] at this ⊢
    exact this
  rest := L.rest_setDict h.rest hr hd

/-- A new list on both sides. -/
theorem newList (h : L.Holds s s') {items items' : List Value} (hi : L.LikeItems items items') :
    L.Holds (s.newList items).2 (s'.newList items').2 ∧
      L.Like (s.newList items).1 (s'.newList items').1 := by
  refine ⟨{ h with
    lists := h.lists.push L.rows_unique L.rows_of_lists hi
    depth := ?_, rest := L.rest_newList h.rest hi }, .list (h.lists.fresh 0)⟩
  have := h.depth
  simp only [Store.depth, Store.newList, Array.size_push] at this ⊢
  omega

/-- A new tuple on both sides. -/
theorem newTuple (h : L.Holds s s') {items items' : List Value} (hi : L.LikeItems items items') :
    L.Holds (s.newTuple items).2 (s'.newTuple items').2 ∧
      L.Like (s.newTuple items).1 (s'.newTuple items').1 := by
  refine ⟨{ h with
    tuples := h.tuples.push L.tuples_unique id hi
    depth := ?_, rest := L.rest_newTuple h.rest hi }, .tuple (h.tuples.fresh 0)⟩
  have := h.depth
  simp only [Store.depth, Store.newTuple, Array.size_push] at this ⊢
  omega

/-- A new mapping on both sides. -/
theorem newDict (h : L.Holds s s') {d d' : Dict} (hd : L.LikeDict d d') :
    L.Holds (s.newDict d).2 (s'.newDict d').2 ∧ L.Like (s.newDict d).1 (s'.newDict d').1 := by
  refine ⟨{ h with
    dicts := h.dicts.push L.mappings_unique L.mappings_of_dicts hd
    depth := ?_, rest := L.rest_newDict h.rest hd }, .dict (h.dicts.fresh 0)⟩
  have := h.depth
  simp only [Store.depth, Store.newDict, Array.size_push] at this ⊢
  omega

/-- A new identity on both sides. -/
theorem newIdentity (h : L.Holds s s') :
    L.Holds s.newIdentity.2 s'.newIdentity.2 ∧ L.identities s.newIdentity.1 s'.newIdentity.1 := by
  refine ⟨{ h with identities := fun i => ?_, rest := L.rest_newIdentity h.rest },
    h.identities 0⟩
  simp only [Store.newIdentity, Nat.add_assoc]
  exact h.identities (1 + i)

end Likeness.Holds
end TextTemplate
