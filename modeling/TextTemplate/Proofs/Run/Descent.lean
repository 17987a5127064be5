/-
# Which steps lower the rank

`Program.runFrom` goes on without using up a spare step as long as the rank of the place falls.
Four moves make it fall, and a program whose blocks nest has no others:

* `below_forward`: going forward, with the running loops as they were;
* `below_enter`: entering a loop;
* `below_again`: jumping back to the body of the innermost loop, with fewer items left;
* `below_leave`: leaving the innermost loop.

All four need the running loops to lie inside each other and around the place (`Enclose`), for
then the exponents of the rank fall.
-/
import TextTemplate.Program.Machine

namespace TextTemplate

/-! ## 1. Rows of terms -/

namespace Rank

/-- What two rows begin with does not count. -/
theorem belowTerms_append (ts us vs : List (Nat × Nat)) :
    belowTerms (ts ++ us) (ts ++ vs) = belowTerms us vs := by
  induction ts with
  | nil => rfl
  | cons t ts ih => simp [belowTerms, ih]

theorem falling_append_pair (t u : Nat × Nat) : ∀ ts : List (Nat × Nat),
    falling (ts ++ [t, u]) = (falling (ts ++ [t]) && decide (u.1 < t.1))
  | [] => by simp [falling]
  | [x] => by simp [falling, Bool.and_comm]
  | x :: y :: ts => by
    have ih := falling_append_pair t u (y :: ts)
    simp only [List.cons_append] at ih
    simp only [List.cons_append, falling, ih, Bool.and_assoc]

end Rank

/-! ## 2. Loops around a place -/

/-- The loops lie inside each other, the innermost first, and the place lies inside all of them. -/
def Enclose : List Loop → Nat → Prop
  | [], _ => True
  | l :: outer, place => l.start < place ∧ Enclose outer l.start

namespace Enclose

theorem mono {loops : List Loop} {place place' : Nat} (h : Enclose loops place)
    (hp : place ≤ place') : Enclose loops place' := by
  cases loops with
  | nil => trivial
  | cons l outer => exact ⟨Nat.lt_of_lt_of_le h.1 hp, h.2⟩

/-- The term of a running loop in a rank. -/
def term (length : Nat) (l : Loop) : Nat × Nat := (2 * (length - l.start), l.left)

/-- The exponents fall from the outermost loop to the innermost one and on to the place. -/
theorem falling {length : Nat} : ∀ {loops : List Loop} {place x y : Nat},
    Enclose loops place → (∀ l ∈ loops, l.start < length) → x ≤ 2 * (length - place) + 1 →
      Rank.falling ((loops.map (term length)).reverse ++ [(x, y)]) = true
  | [], _, _, _, _, _, _ => rfl
  | l :: outer, place, x, y, h, hl, hx => by
    have hs : l.start < length := hl l List.mem_cons_self
    have hlt : l.start < place := h.1
    have ih := falling (x := 2 * (length - l.start)) (y := l.left) h.2
      (fun m hm => hl m (List.mem_cons_of_mem _ hm)) (Nat.le_succ _)
    rw [List.map_cons, List.reverse_cons, List.append_assoc, List.singleton_append,
      Rank.falling_append_pair, Bool.and_eq_true, decide_eq_true_eq]
    refine ⟨ih, ?_⟩
    simp only [term]
    omega

theorem start_lt {loops : List Loop} {place length : Nat} (h : Enclose loops place)
    (hp : place ≤ length) : ∀ l ∈ loops, l.start < length := by
  induction loops generalizing place with
  | nil => simp
  | cons l outer ih =>
    intro m hm
    have hl : l.start < length := Nat.lt_of_lt_of_le h.1 hp
    rcases List.mem_cons.mp hm with rfl | hm
    · exact hl
    · exact ih h.2 (Nat.le_of_lt hl) m hm

end Enclose

/-! ## 3. The four moves -/

namespace Program

variable {p : Program} {place place' : Nat} {f f' : Frame}

theorem rank_terms (p : Program) (place : Nat) (f : Frame) : (p.rank place f).terms =
    (f.loops.map (Enclose.term p.size)).reverse ++ [(2 * (p.size - place) + 1, 0)] := by
  simp only [rank, Rank.of, List.map_map]
  rfl

/-- A rank whose last terms are below those of another is below it, if its exponents fall. -/
theorem below_of_terms {outer : List Loop} {ts us : List (Nat × Nat)}
    (hf : Rank.falling (p.rank place' f').terms = true)
    (h' : (p.rank place' f').terms = (outer.map (Enclose.term p.size)).reverse ++ ts)
    (h : (p.rank place f).terms = (outer.map (Enclose.term p.size)).reverse ++ us)
    (hb : Rank.belowTerms ts us = true) :
    (p.rank place' f').below (p.rank place f) = true := by
  rw [Rank.below, hf, h', h, Rank.belowTerms_append, hb]
  rfl

theorem falling_rank (he : Enclose f.loops place) (hs : ∀ l ∈ f.loops, l.start < p.size) :
    Rank.falling (p.rank place f).terms = true := by
  rw [rank_terms]
  exact Enclose.falling he hs (Nat.le_refl _)

theorem below_forward (he : Enclose f.loops place) (hp : place < p.size)
    (hl : f'.loops = f.loops) (hlt : place < place') :
    (p.rank place' f').below (p.rank place f) = true := by
  have hf : Rank.falling (p.rank place' f').terms = true := by
    refine falling_rank (hl ▸ he.mono (Nat.le_of_lt hlt)) ?_
    exact hl ▸ he.start_lt (Nat.le_of_lt hp)
  refine below_of_terms hf (hl ▸ rank_terms p place' f') (rank_terms p place f) ?_
  simp only [Rank.belowTerms, Bool.or_eq_true, decide_eq_true_eq]
  omega

theorem below_enter {l : Loop} (he : Enclose f.loops place) (hp : place < p.size)
    (hl : f'.loops = l :: f.loops) (hs : l.start = place) (hlt : place < place') :
    (p.rank place' f').below (p.rank place f) = true := by
  have hf : Rank.falling (p.rank place' f').terms = true := by
    refine falling_rank (hl ▸ ⟨hs ▸ hlt, hs ▸ he⟩) ?_
    rw [hl]
    intro m hm
    rcases List.mem_cons.mp hm with rfl | hm
    · exact hs ▸ hp
    · exact he.start_lt (Nat.le_of_lt hp) m hm
  have h' := rank_terms p place' f'
  rw [hl, List.map_cons, List.reverse_cons, List.append_assoc] at h'
  refine below_of_terms hf h' (rank_terms p place f) ?_
  simp only [List.singleton_append, Enclose.term, Rank.belowTerms, Bool.or_eq_true,
    decide_eq_true_eq]
  omega

theorem below_again {l l' : Loop} {outer : List Loop} (he : Enclose f.loops place)
    (hp : place < p.size) (hl : f.loops = l :: outer) (hl' : f'.loops = l' :: outer)
    (hs : l'.start = l.start) (hlt : l'.left < l.left) (hp' : l.start < place') :
    (p.rank place' f').below (p.rank place f) = true := by
  have hstart := he.start_lt (Nat.le_of_lt hp)
  rw [hl] at he hstart
  have hf : Rank.falling (p.rank place' f').terms = true := by
    refine falling_rank (hl' ▸ ⟨hs ▸ hp', hs ▸ he.2⟩) ?_
    rw [hl']
    intro m hm
    rcases List.mem_cons.mp hm with rfl | hm
    · exact hs ▸ hstart l List.mem_cons_self
    · exact hstart m (List.mem_cons_of_mem _ hm)
  have h := rank_terms p place f
  have h' := rank_terms p place' f'
  rw [hl, List.map_cons, List.reverse_cons, List.append_assoc] at h
  rw [hl', List.map_cons, List.reverse_cons, List.append_assoc] at h'
  refine below_of_terms hf h' h ?_
  simp [Enclose.term, Rank.belowTerms, hs, hlt]

theorem below_leave {l : Loop} {outer : List Loop} (he : Enclose f.loops place)
    (hp : place < p.size) (hl : f.loops = l :: outer) (hl' : f'.loops = outer)
    (hlt : place < place') : (p.rank place' f').below (p.rank place f) = true := by
  have hstart := he.start_lt (Nat.le_of_lt hp)
  rw [hl] at he hstart
  have hls : l.start < p.size := hstart l List.mem_cons_self
  have hf : Rank.falling (p.rank place' f').terms = true := by
    refine falling_rank (hl' ▸ he.2.mono (Nat.le_of_lt (Nat.lt_trans he.1 hlt))) ?_
    exact hl' ▸ fun m hm => hstart m (List.mem_cons_of_mem _ hm)
  have h := rank_terms p place f
  have h' := rank_terms p place' f'
  rw [hl, List.map_cons, List.reverse_cons, List.append_assoc] at h
  rw [hl'] at h'
  refine below_of_terms hf h' h ?_
  have hlt' : l.start < place := he.1
  simp only [List.singleton_append, Enclose.term, Rank.belowTerms, Bool.or_eq_true,
    decide_eq_true_eq]
  omega

end Program
end TextTemplate
