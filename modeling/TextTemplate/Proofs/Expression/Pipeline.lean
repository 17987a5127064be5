/-
# Where the pipeline is cut

A `|` separates filters when the text behind it is closed, read from outside.  What stands in front
of the `|` is not looked at.  In a text that is closed as a whole that is nearly the same as reading
it from the left and cutting at each `|` outside of all constants.

Take a `|` inside a constant.  Behind it the reader from the left is inside the constant and the
one that begins at the `|` is outside.  The two stay apart, whatever quotes they meet, and so one
of them at most is outside at the end.  They come together in one case only: at an escaped quote of
the constant around them, where the second reader is outside and takes the backslash for bare text.
Then both read the same from there on, and the `|` is cut although it stands in a constant.

* `cutAt_splitPipeline_iff` says where the pipeline is cut, `isClosed_iff` when a `|` is;
* `splitPipeline_separators` puts both together, also for the expression that is just a constant.
-/
import TextTemplate.Proofs.Compile.Draft
import TextTemplate.Proofs.Expression.Readers

namespace TextTemplate.Text

open TextTemplate.Outcome

/-! ## 1. The parts -/

/-- The parts are cut at the `|` between two texts: they fall into two rows of parts, which make up
the text in front of it and the text behind it. -/
def CutAt (parts : List (List Char)) (before after : List Char) : Prop :=
  ∃ left right, parts = left ++ right ∧ left ≠ [] ∧ right ≠ [] ∧
    ['|'].intercalate left = before ∧ ['|'].intercalate right = after

theorem intercalate_cons {sep : List Char} {part : List Char} {parts : List (List Char)}
    (h : parts ≠ []) :
    sep.intercalate (part :: parts) = part ++ (sep ++ sep.intercalate parts) := by
  obtain ⟨next, rest, rfl⟩ := List.exists_cons_of_ne_nil h
  rw [List.intercalate_cons_cons, List.append_assoc]

theorem intercalate_consFirst {sep : List Char} {c : Char} : ∀ parts : List (List Char),
    sep.intercalate (consFirst c parts) = c :: sep.intercalate parts
  | [] => by simp [consFirst]
  | [part] => by simp [consFirst]
  | part :: next :: rest => by simp [consFirst, List.intercalate_cons_cons]

theorem splitPipeline_cons (c : Char) (cs : List Char) : splitPipeline (c :: cs) =
    if c = '|' ∧ isClosed cs then [] :: splitPipeline cs else consFirst c (splitPipeline cs) := by
  rw [splitPipeline]
  split
  · rfl
  · cases splitPipeline cs <;> rfl

theorem splitPipeline_ne_nil (cs : List Char) : splitPipeline cs ≠ [] := by
  cases cs with
  | nil => exact List.cons_ne_nil _ _
  | cons c cs =>
    rw [splitPipeline_cons]
    split
    · exact List.cons_ne_nil _ _
    · cases splitPipeline cs <;> exact List.cons_ne_nil _ _

/-- **The parts with `|` between them are the text.** -/
theorem intercalate_splitPipeline : ∀ cs : List Char, ['|'].intercalate (splitPipeline cs) = cs
  | [] => rfl
  | c :: cs => by
    rw [splitPipeline_cons]
    split
    · rename_i h
      rw [intercalate_cons (splitPipeline_ne_nil cs), intercalate_splitPipeline cs, h.1]
      rfl
    · rw [intercalate_consFirst, intercalate_splitPipeline cs]

/-- A `|` with a closed text behind it is cut, and what stands behind it is cut by itself. -/
theorem splitPipeline_append {after : List Char} (h : isClosed after = true) :
    ∀ before : List Char, ∃ left, splitPipeline (before ++ '|' :: after) =
      left ++ splitPipeline after ∧ left ≠ [] ∧ ['|'].intercalate left = before
  | [] => ⟨[[]], by simp [splitPipeline_cons, h], List.cons_ne_nil _ _, rfl⟩
  | c :: before => by
    obtain ⟨left, hparts, hne, hjoin⟩ := splitPipeline_append h before
    rw [List.cons_append, splitPipeline_cons, hparts]
    split
    · rename_i hc
      refine ⟨[] :: left, rfl, List.cons_ne_nil _ _, ?_⟩
      rw [intercalate_cons hne, hjoin, hc.1]
      rfl
    · obtain ⟨part, rest, rfl⟩ := List.exists_cons_of_ne_nil hne
      refine ⟨(c :: part) :: rest, rfl, List.cons_ne_nil _ _, ?_⟩
      have hfirst := @intercalate_consFirst ['|'] c (part :: rest)
      rw [hjoin] at hfirst
      exact hfirst

/-- The parts in front of a cut, one character further to the left. -/
theorem intercalate_eq_cons {c : Char} {before : List Char} {left : List (List Char)}
    (h : ['|'].intercalate left = c :: before) :
    (∃ rest, left = [] :: rest ∧ rest ≠ [] ∧ c = '|' ∧ ['|'].intercalate rest = before) ∨
      ∃ part rest, left = (c :: part) :: rest ∧ ['|'].intercalate (part :: rest) = before := by
  rcases left with _ | ⟨_ | ⟨d, part⟩, rest⟩
  · cases h
  · cases rest with
    | nil => cases h
    | cons next rest =>
      rw [List.intercalate_cons_cons] at h
      cases h
      exact .inl ⟨next :: rest, rfl, List.cons_ne_nil _ _, rfl, rfl⟩
  · have hfirst := @intercalate_consFirst ['|'] d (part :: rest)
    rw [consFirst, h] at hfirst
    cases hfirst
    exact .inr ⟨part, rest, rfl, rfl⟩

/-- **The pipeline is cut at a `|` exactly if the text behind it is closed.** -/
theorem cutAt_splitPipeline_iff {before after : List Char} :
    CutAt (splitPipeline (before ++ '|' :: after)) before after ↔ isClosed after = true := by
  constructor
  · rintro ⟨left, right, hparts, hleft, hright, hbefore, -⟩
    induction before generalizing left with
    | nil =>
      rw [List.nil_append, splitPipeline_cons] at hparts
      split at hparts
      · rename_i h
        exact h.2
      · exfalso
        rcases left with _ | ⟨_ | ⟨d, part⟩, rest⟩
        · exact hleft rfl
        · cases hp : splitPipeline after <;> simp [hp, consFirst] at hparts
        · cases rest <;> simp [List.intercalate_cons_cons] at hbefore
    | cons c before ih =>
      rw [List.cons_append, splitPipeline_cons] at hparts
      have hne := splitPipeline_ne_nil (before ++ '|' :: after)
      obtain ⟨first, parts, hfirst⟩ := List.exists_cons_of_ne_nil hne
      rcases intercalate_eq_cons hbefore with
        ⟨rest, rfl, hrest, rfl, hjoin⟩ | ⟨part, rest, rfl, hjoin⟩
      · split at hparts
        · exact ih rest (List.cons.inj hparts).2 hrest hjoin
        · simp [hfirst, consFirst] at hparts
      · split at hparts
        · simp at hparts
        · rw [hfirst, consFirst] at hparts
          obtain ⟨hhead, htail⟩ := List.cons.inj hparts
          refine ih (part :: rest) ?_ (List.cons_ne_nil _ _) hjoin
          rw [hfirst, htail, (List.cons.inj hhead).2]
          rfl
  · intro h
    obtain ⟨left, hparts, hne, hjoin⟩ := splitPipeline_append h before
    exact ⟨left, splitPipeline after, hparts, hne, splitPipeline_ne_nil after, hjoin,
      intercalate_splitPipeline after⟩

/-- A text without a `|` whose rest is closed is one part. -/
theorem splitPipeline_of_open : ∀ {cs : List Char},
    (∀ before after, cs = before ++ '|' :: after → isClosed after = false) → splitPipeline cs = [cs]
  | [], _ => rfl
  | c :: cs, h => by
    have hcs : splitPipeline cs = [cs] := splitPipeline_of_open fun before after hsplit =>
      h (c :: before) after (by rw [hsplit]; rfl)
    rw [splitPipeline_cons, hcs, if_neg]
    · rfl
    · rintro ⟨rfl, hclosed⟩
      rw [h [] cs rfl] at hclosed
      cases hclosed

/-! ## 2. Which separators are cut -/

/-- A `|` between two texts is exposed: it stands in a constant, and behind it the quote of a
constant is escaped where a reader that begins at the `|` is outside. -/
def Exposed (before after : List Char) : Prop :=
  ∃ middle quote rest, after = middle ++ '\\' :: quote :: rest ∧
    Reading.through .outside (before ++ '|' :: middle) = .inside quote ∧ isClosed middle = true

theorem isClosed_eq_true {cs : List Char} :
    isClosed cs = true ↔ Reading.through .outside cs = .outside := decide_eq_true_iff

open Reading in
/-- Behind an exposed `|` the text is closed if the whole text is. -/
theorem Exposed.isClosed {before after : List Char} (h : Exposed before after)
    (hclosed : isClosed (before ++ '|' :: after) = true) : isClosed after = true := by
  obtain ⟨middle, quote, rest, rfl, hinside, hmiddle⟩ := h
  have hq : isQuote quote = true := by
    have hquoted : (Reading.through .outside (before ++ '|' :: middle)).Quoted :=
      Quoted.through trivial
    rw [hinside] at hquoted
    exact hquoted
  rw [isClosed_eq_true] at hclosed hmiddle ⊢
  have hsplit : before ++ '|' :: (middle ++ '\\' :: quote :: rest) =
      (before ++ '|' :: middle) ++ '\\' :: quote :: rest := by simp
  rw [hsplit, through_append, hinside, through_cons, through_cons,
    Reading.next_escape (ne_of_not_quote hq rfl)] at hclosed
  rw [through_append, hmiddle, through_cons, through_cons,
    next_outside_of_not_quote (c := '\\') (by decide), next_outside_of_quote hq]
  exact hclosed

open Reading in
/-- A `|` inside a constant is exposed if the text behind it is closed. -/
theorem exposed_of_isClosed {before after : List Char} {q : Char} (hq : isQuote q = true)
    (hclosed : Reading.through .outside (before ++ '|' :: after) = .outside)
    (htidy : Reading.outside.Tidy (before ++ '|' :: after))
    (hinside : (Reading.through .outside before).next '|' = .inside q)
    (hafter : isClosed after = true) : Exposed before after := by
  have htail : (Reading.through .outside (before ++ ['|'])).Tidy after :=
    Tidy.behind (by rw [List.append_assoc]; exact htidy)
  have hbehind : Reading.through .outside (before ++ ['|']) = .inside q := by
    rw [through_append]
    exact hinside
  rw [hbehind] at htail
  rw [through_append, through_cons, hinside] at hclosed
  obtain ⟨middle, quote, rest, rfl, hmiddle, houtside⟩ :=
    (Apart.ahead hq).meet htail hclosed (isClosed_eq_true.mp hafter)
  refine ⟨middle, quote, rest, rfl, ?_, isClosed_eq_true.mpr houtside⟩
  rw [through_append, through_cons, hinside]
  exact hmiddle

open Reading in
/-- **When a `|` of a closed text is cut**: it stands outside of all constants, or it is exposed. -/
theorem isClosed_iff {before after : List Char}
    (hclosed : isClosed (before ++ '|' :: after) = true)
    (htidy : Reading.outside.Tidy (before ++ '|' :: after)) :
    isClosed after = true ↔
      Reading.through .outside before = .outside ∨ Exposed before after := by
  have hquoted : (Reading.through .outside before).Quoted := Quoted.through trivial
  have hwhole := isClosed_eq_true.mp hclosed
  constructor
  · intro hafter
    cases hr : Reading.through .outside before with
    | outside => exact .inl rfl
    | broken =>
      rw [through_append, hr, through_broken] at hwhole
      cases hwhole
    | inside q =>
      rw [hr] at hquoted
      have hbar : '|' ≠ q := fun h => absurd (h ▸ hquoted : isQuote '|' = true) (by decide)
      refine .inr (exposed_of_isClosed hquoted hwhole htidy ?_ hafter)
      rw [hr]
      exact next_inside_of_ne (by decide) hbar
    | escaped q =>
      rw [hr] at hquoted
      refine .inr (exposed_of_isClosed hquoted hwhole htidy ?_ hafter)
      rw [hr]
      exact Reading.next_escape (by decide)
  · rintro (hr | hexposed)
    · rw [through_append, hr] at hwhole
      exact isClosed_eq_true.mpr hwhole
    · exact hexposed.isClosed hclosed

/-! ## 3. A constant by itself -/

/-- The quote that is not `q`. -/
def otherQuote (q : Char) : Char := if q = '"' then '\'' else '"'

/-- Some `q` of the text has an even number of the other quotes before it, `n` more counted in. -/
def MeetsOutside (q : Char) (n : Nat) (cs : List Char) : Prop :=
  ∃ before after, cs = before ++ q :: after ∧ (n + before.count (otherQuote q)) % 2 = 0

/-- A `|` of the text has a `q` behind it, with an even number of the other quotes between. -/
def BarExposed (q : Char) (cs : List Char) : Prop :=
  ∃ before after, cs = before ++ '|' :: after ∧ MeetsOutside q 0 after

section Constants

open Reading

variable {q c : Char} {n : Nat} {cs : List Char}

theorem isQuote_otherQuote (q : Char) : isQuote (otherQuote q) = true := by
  unfold otherQuote
  split <;> rfl

theorem otherQuote_ne (hq : isQuote q = true) : otherQuote q ≠ q := by
  rcases quote_cases hq with rfl | rfl <;> decide

/-- A quote is one of the two. -/
theorem isQuote_iff (hq : isQuote q = true) : isQuote c = true ↔ c = q ∨ c = otherQuote q := by
  rcases quote_cases hq with rfl | rfl <;> simp [isQuote, otherQuote, or_comm]

theorem meetsOutside_nil : ¬MeetsOutside q n [] := by
  rintro ⟨before, after, h, -⟩
  cases before <;> cases h

theorem meetsOutside_cons : MeetsOutside q n (c :: cs) ↔
    (c = q ∧ n % 2 = 0) ∨ MeetsOutside q (n + if c = otherQuote q then 1 else 0) cs := by
  constructor
  · rintro ⟨_ | ⟨d, before⟩, after, hsplit, heven⟩
    · cases hsplit
      exact .inl ⟨rfl, heven⟩
    · cases hsplit
      refine .inr ⟨before, after, rfl, ?_⟩
      rw [List.count_cons] at heven
      simpa [Nat.add_comm, Nat.add_left_comm, Nat.add_assoc] using heven
  · rintro (⟨rfl, heven⟩ | ⟨before, after, rfl, heven⟩)
    · exact ⟨[], cs, rfl, heven⟩
    · refine ⟨c :: before, after, rfl, ?_⟩
      rw [List.count_cons]
      simpa [Nat.add_comm, Nat.add_left_comm, Nat.add_assoc] using heven

theorem barExposed_nil : ¬BarExposed q [] := by
  rintro ⟨before, after, h, -⟩
  cases before <;> cases h

theorem barExposed_cons : BarExposed q (c :: cs) ↔
    (c = '|' ∧ MeetsOutside q 0 cs) ∨ BarExposed q cs := by
  constructor
  · rintro ⟨_ | ⟨d, before⟩, after, hsplit, hmeets⟩
    · obtain ⟨rfl, rfl⟩ := List.cons.inj hsplit
      exact .inl ⟨rfl, hmeets⟩
    · obtain ⟨rfl, rfl⟩ := List.cons.inj hsplit
      exact .inr ⟨before, after, rfl, hmeets⟩
  · rintro (⟨rfl, hmeets⟩ | ⟨before, after, rfl, hmeets⟩)
    · exact ⟨[], cs, rfl, hmeets⟩
    · exact ⟨c :: before, after, rfl, hmeets⟩

instance decidableMeetsOutside (q : Char) : ∀ (n : Nat) (cs : List Char),
    Decidable (MeetsOutside q n cs)
  | _, [] => isFalse meetsOutside_nil
  | n, c :: cs =>
    have := decidableMeetsOutside q (n + if c = otherQuote q then 1 else 0) cs
    decidable_of_iff _ meetsOutside_cons.symm

instance decidableBarExposed (q : Char) : ∀ cs : List Char, Decidable (BarExposed q cs)
  | [] => isFalse barExposed_nil
  | _ :: cs =>
    have := decidableBarExposed q cs
    decidable_of_iff _ barExposed_cons.symm

/-- Where a reader is that began outside of an escaped text: outside or inside of other quotes, as
their number tells. -/
def besides (q : Char) (n : Nat) : Reading :=
  if n % 2 = 0 then outside else inside (otherQuote q)

/-- The rest of a constant is closed for a reader inside of it. -/
theorem through_inside_escape (hq : isQuote q = true) : ∀ cs : List Char,
    (inside q).through (escape q cs ++ [q]) = outside
  | [] => next_inside_self hq
  | c :: cs => by
    have ih := through_inside_escape hq cs
    by_cases hc : c = q ∨ c = '\\'
    · have hline : c ≠ '\n' := by
        rintro rfl
        rcases hc with hc | hc
        · exact ne_of_not_quote hq rfl hc.symm
        · exact absurd hc (by decide)
      rw [escape_cons_special hc, List.cons_append, List.cons_append, through_cons, through_cons,
        Reading.next_escape hline, ih]
    · rw [escape_cons_plain hc, List.cons_append, through_cons,
        next_inside_of_ne (fun h => hc (.inr h)) (fun h => hc (.inl h)), ih]

theorem next_besides_other (n : Nat) :
    (besides q n).next (otherQuote q) = besides q (n + 1) := by
  unfold besides
  by_cases hn : n % 2 = 0
  · rw [if_pos hn, if_neg (by omega), next_outside_of_quote (isQuote_otherQuote q)]
  · rw [if_neg hn, if_pos (by omega), next_inside_self (isQuote_otherQuote q)]

theorem next_besides_plain (hq : isQuote q = true) (hc : ¬(c = q ∨ c = '\\'))
    (hother : c ≠ otherQuote q) : (besides q n).next c = besides q n := by
  have hquote : isQuote c = false := by
    rw [← Bool.not_eq_true, isQuote_iff hq]
    rintro (h | h)
    · exact hc (.inl h)
    · exact hother h
  unfold besides
  split
  · exact next_outside_of_not_quote hquote
  · exact next_inside_of_ne (fun h => hc (.inr h)) hother

/-- An escaped quote `q` begins a constant for such a reader if it is outside. -/
theorem escaped_quote_of_even (hq : isQuote q = true) (hn : n % 2 = 0) :
    ((besides q n).next '\\').next q = inside q := by
  rw [besides, if_pos hn, next_outside_of_not_quote (show isQuote '\\' = false from rfl),
    next_outside_of_quote hq]

theorem escaped_quote_of_odd (hq : isQuote q = true) (hn : ¬n % 2 = 0) :
    ((besides q n).next '\\').next q = besides q n := by
  rw [besides, if_neg hn, Reading.next_escape (ne_of_not_quote hq rfl)]

theorem escaped_backslash (q : Char) (n : Nat) :
    ((besides q n).next '\\').next '\\' = besides q n := by
  unfold besides
  split
  · rfl
  · exact Reading.next_escape (by decide)

/-- **The rest of a constant is closed for a reader outside of it** exactly if that reader meets a
quote of the constant outside of other quotes. -/
theorem through_besides_escape (hq : isQuote q = true) (cs : List Char) (n : Nat) :
    (besides q n).through (escape q cs ++ [q]) = outside ↔ MeetsOutside q n cs := by
  induction cs generalizing n with
  | nil =>
    -- the quote at the end begins a constant, or stands in one of other quotes
    have hne : q ≠ otherQuote q := Ne.symm (otherQuote_ne hq)
    refine ⟨fun h => absurd h ?_, fun h => absurd h meetsOutside_nil⟩
    rw [escape, List.flatMap_nil, List.nil_append, through_cons]
    unfold besides
    split
    · rw [next_outside_of_quote hq]
      rintro ⟨⟩
    · rw [next_inside_of_ne (ne_of_not_quote hq rfl) hne]
      rintro ⟨⟩
  | cons c cs ih =>
    rw [meetsOutside_cons]
    by_cases hcq : c = q
    · subst hcq
      have hne : c ≠ otherQuote c := Ne.symm (otherQuote_ne hq)
      rw [escape_cons_special (.inl rfl), List.cons_append, List.cons_append, through_cons,
        through_cons, if_neg hne, Nat.add_zero]
      by_cases hn : n % 2 = 0
      · rw [escaped_quote_of_even hq hn, through_inside_escape hq]
        exact ⟨fun _ => .inl ⟨rfl, hn⟩, fun _ => rfl⟩
      · rw [escaped_quote_of_odd hq hn, ih n]
        exact ⟨.inr, fun h => h.resolve_left fun h => hn h.2⟩
    · have hfirst : ¬(c = q ∧ n % 2 = 0) := fun h => hcq h.1
      rw [or_iff_right hfirst]
      by_cases hc : c = '\\'
      · subst hc
        have hne : '\\' ≠ otherQuote q := Ne.symm (ne_of_not_quote (isQuote_otherQuote q) rfl)
        rw [escape_cons_special (.inr rfl), List.cons_append, List.cons_append, through_cons,
          through_cons, escaped_backslash, if_neg hne, Nat.add_zero, ih n]
      · have hplain : ¬(c = q ∨ c = '\\') := fun h => h.elim hcq hc
        rw [escape_cons_plain hplain, List.cons_append, through_cons]
        by_cases hother : c = otherQuote q
        · subst hother
          rw [next_besides_other, if_pos rfl, ih (n + 1)]
        · rw [next_besides_plain hq hplain hother, if_neg hother, Nat.add_zero, ih n]

/-- A `|` of a constant is a `|` of its text. -/
theorem bar_of_escape (hq : isQuote q = true) : ∀ {cs before after : List Char},
    escape q cs ++ [q] = before ++ '|' :: after →
      ∃ before' after', cs = before' ++ '|' :: after' ∧ after = escape q after' ++ [q]
  | [], before, after, h => by
    rcases before with _ | ⟨d, before⟩
    · cases h
      exact absurd hq (by decide)
    · have htail : [] = before ++ '|' :: after := (List.cons.inj h).2
      cases before <;> cases htail
  | c :: cs, before, after, h => by
    by_cases hc : c = q ∨ c = '\\'
    · have hbar : c ≠ '|' := by
        rintro rfl
        rcases hc with hc | hc
        · exact ne_of_not_quote hq rfl hc.symm
        · exact absurd hc (by decide)
      rw [escape_cons_special hc] at h
      rcases before with _ | ⟨d, _ | ⟨e, before⟩⟩
      · cases h
      · exact absurd (List.cons.inj (List.cons.inj h).2).1 hbar
      · obtain ⟨before', after', rfl, hafter⟩ :=
          bar_of_escape hq (List.cons.inj (List.cons.inj h).2).2
        exact ⟨c :: before', after', rfl, hafter⟩
    · rw [escape_cons_plain hc] at h
      rcases before with _ | ⟨d, before⟩
      · obtain ⟨rfl, rfl⟩ := List.cons.inj h
        exact ⟨[], cs, rfl, rfl⟩
      · obtain ⟨before', after', rfl, hafter⟩ := bar_of_escape hq (List.cons.inj h).2
        exact ⟨c :: before', after', rfl, hafter⟩

/-- Where the text of a constant has a `|`, the constant has one. -/
theorem constantOf_bar (hq : isQuote q = true) (before after : List Char) :
    constantOf q (before ++ '|' :: after) =
      (q :: escape q before) ++ '|' :: (escape q after ++ [q]) := by
  have hplain : ¬('|' = q ∨ '|' = '\\') := by
    rintro (h | h)
    · exact ne_of_not_quote hq rfl h.symm
    · exact absurd h (by decide)
  have hbar := escape_cons_plain hplain after
  unfold escape at hbar ⊢
  rw [constantOf_eq, escape, List.flatMap_append, hbar]
  simp

/-- **A constant is one part of the pipeline unless a `|` of its text is exposed.** -/
theorem splitPipeline_constantOf (hq : isQuote q = true) (h : ¬BarExposed q cs) :
    splitPipeline (constantOf q cs) = [constantOf q cs] := by
  refine splitPipeline_of_open fun before after hsplit => ?_
  rw [constantOf_eq] at hsplit
  rcases before with _ | ⟨d, before⟩
  · exact absurd (List.cons.inj hsplit).1 (ne_of_not_quote hq rfl)
  · obtain ⟨before', after', rfl, rfl⟩ := bar_of_escape hq (List.cons.inj hsplit).2
    rw [← Bool.not_eq_true, isClosed_eq_true]
    exact fun hclosed => h ⟨before', after', rfl, (through_besides_escape hq after' 0).mp hclosed⟩

/-- If a `|` of its text is exposed, the first part has fewer of them than the text. -/
theorem splitPipeline_constantOf_exposed (hq : isQuote q = true) (h : BarExposed q cs) :
    ∃ base specs, splitPipeline (constantOf q cs) = base :: specs ∧
      base.count '|' < cs.count '|' := by
  obtain ⟨before, after, rfl, hmeets⟩ := h
  have hclosed : isClosed (escape q after ++ [q]) = true :=
    isClosed_eq_true.mpr ((through_besides_escape hq after 0).mpr hmeets)
  obtain ⟨left, hparts, hne, -⟩ := splitPipeline_append hclosed (q :: escape q before)
  rw [← constantOf_bar hq] at hparts
  obtain ⟨base, rest, rfl⟩ := List.exists_cons_of_ne_nil hne
  refine ⟨base, rest ++ splitPipeline (escape q after ++ [q]), hparts, ?_⟩
  have hjoin := intercalate_splitPipeline (constantOf q (before ++ '|' :: after))
  have hspecs : rest ++ splitPipeline (escape q after ++ [q]) ≠ [] := fun h =>
    splitPipeline_ne_nil _ (List.append_eq_nil_iff.mp h).2
  rw [hparts, List.cons_append, intercalate_cons hspecs] at hjoin
  have hcount := congrArg (List.count '|') hjoin
  rw [count_constantOf (by decide) (Ne.symm (ne_of_not_quote hq rfl)), List.count_append,
    List.count_append, List.count_singleton_self] at hcount
  omega

end Constants

end TextTemplate.Text

namespace TextTemplate

open TextTemplate.Outcome TextTemplate.Text

/-! ## 4. Expressions -/

/-- **A written constant is read as an expression without filters**, unless a `|` is exposed. -/
theorem Expression.read_constantOf {q : Char} (hq : isQuote q = true) {cs : List Char}
    (h : ¬BarExposed q cs) : Expression.read (constantOf q cs) =
      .ok ⟨String.ofList (constantOf q cs),
        ⟨String.ofList (constantOf q cs), .text (String.ofList cs)⟩, []⟩ := by
  have hblank : strip (constantOf q cs) ≠ [] := by
    rw [strip_constantOf hq]
    exact List.cons_ne_nil _ _
  unfold Expression.read
  dsimp only
  rw [splitPipeline_constantOf hq h]
  dsimp only
  rw [if_neg hblank, Operand.read_constantOf hq]
  rfl

/-- An expression that has been read starts with the operand of its first part. -/
theorem Expression.base_of_read {cs base : List Char} {specs : List (List Char)} {e : Expression}
    (h : Expression.read cs = .ok e) (hparts : splitPipeline cs = base :: specs) :
    Operand.read base = .ok e.base := by
  unfold Expression.read at h
  dsimp only at h
  rw [hparts] at h
  dsimp only at h
  split at h
  · cases h
  · obtain ⟨operand, hread, h⟩ := except_bind_eq_ok h
    obtain ⟨applications, -, h⟩ := except_bind_eq_ok h
    cases h
    exact hread

/-- If a `|` is exposed, the expression does not start with the text of the constant. -/
theorem Expression.base_ne_of_barExposed {q : Char} (hq : isQuote q = true) {cs : List Char}
    (h : BarExposed q cs) {e : Expression} (he : Expression.read (constantOf q cs) = .ok e) :
    e.base.form ≠ .text (String.ofList cs) := by
  intro hform
  obtain ⟨base, specs, hparts, hlt⟩ := splitPipeline_constantOf_exposed hq h
  obtain ⟨s, hs, heq⟩ := Operand.constant_of_read (base_of_read he hparts) hform
  obtain rfl := String.ofList_injective heq
  have hcount := count_constant? (x := '|') (by decide) hs
  have hstrip := (strip_sublist base).count_le '|'
  omega

/-- **The separators of a pipeline.**  In a text that is closed, has no line break and no backslash
outside of its constants, the pipeline is cut at each `|` outside of all constants, and besides at
those in a constant that are exposed, and nowhere else.  Accordingly a text written as a constant
is read back as just that constant, unless a `|` of it has a quote of the same kind behind it with
an even number of the other quotes between; then it is not. -/
theorem splitPipeline_separators (text cs : List Char) {q : Char} (hq : isQuote q = true)
    (c : Compilation) :
    (isClosed text = true → Reading.outside.Tidy text →
      ['|'].intercalate (splitPipeline text) = text ∧
      ∀ before after, text = before ++ '|' :: after →
        (CutAt (splitPipeline text) before after ↔
          Reading.through .outside before = .outside ∨ Exposed before after)) ∧
    (¬BarExposed q cs → Compile.expression (constantOf q cs) c =
      .ok ⟨String.ofList (constantOf q cs),
        ⟨String.ofList (constantOf q cs), .text (String.ofList cs)⟩, []⟩ c) ∧
    (BarExposed q cs → ∀ e c', Compile.expression (constantOf q cs) c = .ok e c' →
      e.base.form ≠ .text (String.ofList cs)) := by
  refine ⟨fun hclosed htidy => ⟨intercalate_splitPipeline text, ?_⟩, fun h => ?_,
    fun h e c' he => ?_⟩
  · rintro before after rfl
    rw [cutAt_splitPipeline_iff]
    exact isClosed_iff hclosed htidy
  · rw [Compile.expression_apply, Expression.read_constantOf hq h]
    rfl
  · rw [Compile.expression_apply] at he
    cases hr : Expression.read (constantOf q cs) with
    | error cause =>
      rw [hr] at he
      cases he
    | ok e' =>
      rw [hr] at he
      cases he
      exact Expression.base_ne_of_barExposed hq h hr

/-- The text `a|"b\"|c"` is cut at its first `|` and not at the second one, and the constant for
`b"|c` is read as a constant. -/
theorem bar_in_constant_kept :
    CutAt (splitPipeline "a|\"b\\\"|c\"".toList) "a".toList "\"b\\\"|c\"".toList ∧
    ¬CutAt (splitPipeline "a|\"b\\\"|c\"".toList) "a|\"b\\\"".toList "c\"".toList ∧
    Compile.expression (constantOf '"' "b\"|c".toList) (.start .empty) =
      .ok ⟨"\"b\\\"|c\"", ⟨"\"b\\\"|c\"", .text "b\"|c"⟩, []⟩ (.start .empty) := by
  obtain ⟨hcut, hconstant, -⟩ := splitPipeline_separators "a|\"b\\\"|c\"".toList "b\"|c".toList
    (show isQuote '"' = true from rfl) (.start .empty)
  obtain ⟨-, hcut⟩ := hcut (by decide) (by decide)
  refine ⟨(hcut _ _ (by decide)).mpr (.inl (by decide)), fun h => ?_, ?_⟩
  · rcases (hcut _ _ (by decide)).mp h with houtside | ⟨middle, quote, rest, hsplit, -⟩
    · exact absurd houtside (by decide)
    · have hmem : '\\' ∈ "c\"".toList := hsplit ▸ List.mem_append_right _ List.mem_cons_self
      exact absurd hmem (by decide)
  · exact hconstant (by decide)

/-- In the constant for `a|"` the `|` is cut, although the whole text is a constant, and the
expression is read as the variable `a`. -/
theorem bar_before_escaped_quote_cut :
    isClosed (constantOf '"' ['a', '|', '"']) = true ∧
    Reading.outside.Tidy (constantOf '"' ['a', '|', '"']) ∧
    CutAt (splitPipeline (constantOf '"' ['a', '|', '"'])) ['"', 'a'] ['\\', '"', '"'] ∧
    Reading.through .outside ['"', 'a'] ≠ .outside ∧
    Expression.read (constantOf '"' ['a', '|', '"']) =
      .ok ⟨"\"a|\\\"\"", ⟨"\"a", .path ["a"]⟩, []⟩ := by
  refine ⟨by decide, by decide, ?_, by decide, rfl⟩
  exact (@cutAt_splitPipeline_iff ['"', 'a'] ['\\', '"', '"']).mpr (by decide)

end TextTemplate
