/-
# Two readers of a text

A reader of a text is outside of all constants or inside of one (`Reading`).  Two readers that start
differently mostly stay apart: a quote leads each of them from one side to the other, but never
both to the same side.  They come together only at an escaped quote, where one of them is inside a
constant with that quote and takes the backslash as an escape, and the other one is outside and
takes it as bare text.

* `Reading.Tidy` says that a text has no line break and no backslash outside of its constants;
* `Reading.Apart` says that two readers are apart, and `Reading.Apart.meet` where they come
  together.
-/
import TextTemplate.Proofs.Expression.Constants

namespace TextTemplate.Text.Reading

variable {r r' : Reading} {c d q p : Char} {cs ds : List Char}

/-! ## 1. One reader -/

theorem through_append (r : Reading) (cs ds : List Char) :
    r.through (cs ++ ds) = (r.through cs).through ds := List.foldl_append

theorem through_cons (r : Reading) (c : Char) (cs : List Char) :
    r.through (c :: cs) = (r.next c).through cs := rfl

/-- What a reader takes for the quote of the constant around it is a quote. -/
def Quoted : Reading → Prop
  | inside q | escaped q => isQuote q = true
  | _ => True

theorem Quoted.next (h : r.Quoted) (c : Char) : (r.next c).Quoted := by
  cases r with
  | outside =>
    simp only [Reading.next]
    split
    · assumption
    · trivial
  | inside q =>
    simp only [Reading.next]
    split
    · exact h
    · split
      · trivial
      · exact h
  | escaped q =>
    simp only [Reading.next]
    split
    · trivial
    · exact h
  | broken => trivial

theorem Quoted.through : ∀ {cs : List Char} {r : Reading}, r.Quoted → (r.through cs).Quoted
  | [], _, h => h
  | c :: _, _, h => (h.next c).through

theorem through_broken (cs : List Char) : broken.through cs = broken := by
  induction cs with
  | nil => rfl
  | cons c cs ih => exact ih

/-! ## 2. Tidy texts -/

/-- For a reader there is no line break in the text, and no backslash outside of all constants. -/
structure Tidy (r : Reading) (cs : List Char) : Prop where
  line : '\n' ∉ cs
  bare : ∀ before after, cs = before ++ '\\' :: after → r.through before ≠ outside

theorem Tidy.tail (h : r.Tidy (c :: cs)) : (r.next c).Tidy cs where
  line hmem := h.line (List.mem_cons_of_mem c hmem)
  bare before after hsplit := h.bare (c :: before) after (by rw [hsplit]; rfl)

/-- The same, read off character by character. -/
def isTidy : Reading → List Char → Bool
  | _, [] => true
  | r, c :: cs => c ≠ '\n' && (c ≠ '\\' || r ≠ outside) && (r.next c).isTidy cs

theorem tidy_iff : ∀ {cs : List Char} {r : Reading}, r.Tidy cs ↔ r.isTidy cs = true
  | [], r => by
    refine ⟨fun _ => rfl, fun _ => ⟨List.not_mem_nil, fun before after hsplit => ?_⟩⟩
    cases before <;> cases hsplit
  | c :: cs, r => by
    simp only [isTidy, Bool.and_eq_true, Bool.or_eq_true, decide_eq_true_eq]
    rw [← tidy_iff]
    constructor
    · intro h
      refine ⟨⟨fun hc => h.line (hc ▸ List.mem_cons_self), ?_⟩, h.tail⟩
      by_cases hc : c = '\\'
      · exact .inr (h.bare [] cs (by rw [hc]; rfl))
      · exact .inl hc
    · rintro ⟨⟨hline, hbare⟩, htail⟩
      refine ⟨?_, ?_⟩
      · rw [List.mem_cons]
        rintro (h | h)
        · exact hline h.symm
        · exact htail.line h
      · rintro (_ | ⟨d, before⟩) after hsplit
        · obtain ⟨rfl, rfl⟩ := List.cons.inj hsplit
          exact hbare.resolve_left fun h => h rfl
        · obtain ⟨rfl, rfl⟩ := List.cons.inj hsplit
          exact htail.bare before after rfl

instance (r : Reading) (cs : List Char) : Decidable (r.Tidy cs) := decidable_of_iff _ tidy_iff.symm

theorem Tidy.behind :
    ∀ {ds cs : List Char} {r : Reading}, r.Tidy (ds ++ cs) → (r.through ds).Tidy cs
  | [], _, _, h => h
  | _ :: _, _, _, h => h.tail.behind

/-! ## 3. Apart -/

/-- Two readers that are not both outside and not inside the same constant. -/
inductive Apart : Reading → Reading → Prop where
  | ahead {q : Char} (hq : isQuote q = true) : Apart (inside q) outside
  | behind {q : Char} (hq : isQuote q = true) : Apart outside (inside q)
  | inner {q p : Char} (hq : isQuote q = true) (hp : isQuote p = true) (hne : q ≠ p) :
      Apart (inside q) (inside p)

theorem next_outside_of_quote (hq : isQuote q = true) : outside.next q = inside q := if_pos hq

theorem next_outside_of_not_quote (hc : isQuote c = false) : outside.next c = outside := by
  rw [Reading.next, if_neg (by rw [hc]; exact Bool.false_ne_true)]

theorem next_inside_self (hq : isQuote q = true) : (inside q).next q = outside := by
  rw [Reading.next, if_neg (ne_of_not_quote hq rfl), if_pos rfl]

theorem next_inside_of_ne (hc : c ≠ '\\') (hne : c ≠ q) : (inside q).next c = inside q := by
  rw [Reading.next, if_neg hc, if_neg hne]

theorem next_escape (hd : d ≠ '\n') : ((inside q).next '\\').next d = inside q := if_neg hd

theorem Apart.symm (h : Apart r r') : Apart r' r := by
  cases h with
  | ahead hq => exact .behind hq
  | behind hq => exact .ahead hq
  | inner hq hp hne => exact .inner hp hq (Ne.symm hne)

/-- A reader outside of all constants stays apart from one inside of a constant. -/
theorem apart_ahead (hq : isQuote q = true) (hc : c ≠ '\\') :
    Apart ((inside q).next c) (outside.next c) := by
  by_cases hcq : c = q
  · subst hcq
    rw [next_inside_self hq, next_outside_of_quote hq]
    exact .behind hq
  · rw [next_inside_of_ne hc hcq]
    by_cases hquote : isQuote c = true
    · rw [next_outside_of_quote hquote]
      exact .inner hq hquote (Ne.symm hcq)
    · rw [next_outside_of_not_quote (by simpa using hquote)]
      exact .ahead hq

/-- **Quotes keep two readers apart**, and so does anything else that is no backslash. -/
theorem Apart.next (h : Apart r r') (hc : c ≠ '\\') : Apart (r.next c) (r'.next c) := by
  cases h with
  | ahead hq => exact apart_ahead hq hc
  | behind hq => exact (apart_ahead hq hc).symm
  | @inner q p hq hp hne =>
    by_cases hcq : c = q
    · subst hcq
      rw [next_inside_self hq, next_inside_of_ne hc hne]
      exact .behind hp
    · rw [next_inside_of_ne hc hcq]
      by_cases hcp : c = p
      · subst hcp
        rw [next_inside_self hp]
        exact .ahead hq
      · rw [next_inside_of_ne hc hcp]
        exact .inner hq hp hne

/-- What is escaped inside a constant keeps a second reader apart, unless that is outside and the
quote of the constant is escaped. -/
theorem Apart.next_escape (h : Apart (inside q) r') (hd : d ≠ '\n') :
    (r' = outside ∧ d = q) ∨ Apart (inside q) ((r'.next '\\').next d) := by
  cases h with
  | @ahead q hq =>
    by_cases hdq : d = q
    · exact .inl ⟨rfl, hdq⟩
    · right
      rw [next_outside_of_not_quote (c := '\\') (by decide)]
      by_cases hquote : isQuote d = true
      · rw [next_outside_of_quote hquote]
        exact .inner hq hquote (Ne.symm hdq)
      · rw [next_outside_of_not_quote (by simpa using hquote)]
        exact .ahead hq
  | @inner q p hq hp hne =>
    right
    rw [Reading.next_escape hd]
    exact .inner hq hp hne

/-- **Where two readers come together**: if both are outside at the end of a text that is tidy for
the first one, then a quote of a constant that the first one is inside of is escaped where the
second one is outside. -/
theorem Apart.meet : ∀ {cs : List Char} {r r' : Reading}, Apart r r' → r.Tidy cs →
    r.through cs = outside → r'.through cs = outside →
    ∃ before quote after, cs = before ++ '\\' :: quote :: after ∧
      r.through before = inside quote ∧ r'.through before = outside
  | [], _, _, h, _, hr, hr' => by
    cases h with
    | ahead hq => cases hr
    | behind hq => cases hr'
    | inner hq hp hne => cases hr
  | c :: cs, r, r', h, ht, hr, hr' => by
    by_cases hc : c = '\\'
    · subst hc
      have hne : r ≠ outside := ht.bare [] cs rfl
      cases hq : r with
      | outside => exact absurd hq hne
      | escaped q => subst hq; cases h
      | broken => subst hq; cases h
      | inside q =>
        subst hq
        cases cs with
        | nil => cases hr
        | cons d cs =>
          have hd : d ≠ '\n' := by
            rintro rfl
            exact ht.line (by simp)
          rcases h.next_escape hd with ⟨rfl, rfl⟩ | hnext
          · exact ⟨[], d, cs, rfl, rfl, rfl⟩
          · have hescape := @Reading.next_escape d q hd
            rw [through_cons, through_cons, hescape] at hr
            have htail : (inside q).Tidy cs := hescape ▸ ht.tail.tail
            obtain ⟨before, quote, after, rfl, hb, hb'⟩ := hnext.meet htail hr hr'
            refine ⟨'\\' :: d :: before, quote, after, rfl, ?_, hb'⟩
            rw [through_cons, through_cons, hescape]
            exact hb
    · obtain ⟨before, quote, after, rfl, hb, hb'⟩ := (h.next hc).meet ht.tail hr hr'
      exact ⟨c :: before, quote, after, rfl, hb, hb'⟩

end TextTemplate.Text.Reading
