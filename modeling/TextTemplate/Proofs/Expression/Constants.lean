/-
# Written constants

A text is written as a constant between two quotes, with a backslash in front of each backslash and
each quote of that kind.  Read back, the constant stands for the text.

* `unescape_escape` undoes the backslashes, in two passes: the quotes first;
* `Operand.read_constantOf` reads the constant as an operand;
* `count_unescape` and its like say what no pass adds or takes away.
-/
import TextTemplate.Expression.Operand
import TextTemplate.Proofs.Outcome

namespace TextTemplate.Text

open TextTemplate.Outcome

/-! ## 1. Backslashes -/

/-- A text with a backslash in front of each backslash and of each quote `q`. -/
def escape (q : Char) (cs : List Char) : List Char :=
  cs.flatMap fun c => if c = q ∨ c = '\\' then ['\\', c] else [c]

variable {q : Char}

theorem constantOf_eq (q : Char) (cs : List Char) : constantOf q cs = q :: (escape q cs ++ [q]) :=
  rfl

theorem escape_cons_special {c : Char} (hc : c = q ∨ c = '\\') (cs : List Char) :
    escape q (c :: cs) = '\\' :: c :: escape q cs := by
  rw [escape, List.flatMap_cons, if_pos hc]
  rfl

theorem escape_cons_plain {c : Char} (hc : ¬(c = q ∨ c = '\\')) (cs : List Char) :
    escape q (c :: cs) = c :: escape q cs := by
  rw [escape, List.flatMap_cons, if_neg hc]
  rfl

/-- An escaped text begins with no quote `q`. -/
theorem head_escape (hq : q ≠ '\\') (cs : List Char) : (escape q cs).head? ≠ some q := by
  cases cs with
  | nil => exact nofun
  | cons c cs =>
    by_cases hc : c = q ∨ c = '\\'
    · rw [escape_cons_special hc]
      exact fun h => hq (Option.some.inj h).symm
    · rw [escape_cons_plain hc]
      exact fun h => hc (.inl (Option.some.inj h))

theorem dropBefore_cons_of_ne {a b c : Char} (hc : c ≠ a) (cs : List Char) :
    dropBefore a b (c :: cs) = c :: dropBefore a b cs := by
  cases cs with
  | nil => rfl
  | cons d cs => rw [dropBefore, if_neg fun h => hc h.1]

theorem dropBefore_cons_of_head {a b c : Char} {cs : List Char} (h : cs.head? ≠ some b) :
    dropBefore a b (c :: cs) = c :: dropBefore a b cs := by
  cases cs with
  | nil => rfl
  | cons d cs => rw [dropBefore, if_neg fun hd => h (congrArg some hd.2)]

/-- First the escaped quotes are resolved, and the backslashes stay doubled. -/
theorem dropBefore_escape (hq : q ≠ '\\') : ∀ cs : List Char,
    dropBefore '\\' q (escape q cs) = escape '\\' cs
  | [] => rfl
  | c :: cs => by
    have ih := dropBefore_escape hq cs
    by_cases hcq : c = q
    · subst hcq
      rw [escape_cons_special (.inl rfl), escape_cons_plain (by simp [hq]), dropBefore,
        if_pos ⟨rfl, rfl⟩, ih]
    · by_cases hc : c = '\\'
      · subst hc
        rw [escape_cons_special (.inr rfl), escape_cons_special (.inr rfl), dropBefore,
          if_neg fun h => hcq h.2, dropBefore_cons_of_head (head_escape hq cs), ih]
      · rw [escape_cons_plain (by simp [hcq, hc]), escape_cons_plain (by simp [hc]),
          dropBefore_cons_of_ne hc, ih]

/-- Then the doubled backslashes are resolved. -/
theorem dropBefore_escape_backslash : ∀ cs : List Char,
    dropBefore '\\' '\\' (escape '\\' cs) = cs
  | [] => rfl
  | c :: cs => by
    have ih := dropBefore_escape_backslash cs
    by_cases hc : c = '\\'
    · subst hc
      rw [escape_cons_special (.inr rfl), dropBefore, if_pos ⟨rfl, rfl⟩, ih]
    · rw [escape_cons_plain (by simp [hc]), dropBefore_cons_of_ne hc, ih]

/-- **An escaped text stands for the text.** -/
theorem unescape_escape (hq : q ≠ '\\') (cs : List Char) : unescape q (escape q cs) = cs := by
  rw [unescape, dropBefore_escape hq, dropBefore_escape_backslash]

/-! ## 2. Reading a constant back -/

theorem quote_cases (hq : isQuote q = true) : q = '"' ∨ q = '\'' := by
  simpa [isQuote] using hq

/-- A quote is not what is no quote. -/
theorem ne_of_not_quote {c : Char} (hq : isQuote q = true) (hc : isQuote c = false) : q ≠ c := by
  rintro rfl
  rw [hq] at hc
  cases hc

theorem not_blank (hq : isQuote q = true) : isBlank q = false := by
  rcases quote_cases hq with rfl | rfl <;> decide

/-- A constant has no blanks at its ends. -/
theorem strip_constantOf (hq : isQuote q = true) (cs : List Char) :
    strip (constantOf q cs) = constantOf q cs := by
  have hb := not_blank hq
  simp [constantOf_eq, strip, stripLeft, stripRight, hb]

/-- **A written constant stands for its text.** -/
theorem constant?_constantOf (hq : isQuote q = true) (cs : List Char) :
    constant? (constantOf q cs) = some cs := by
  rw [constantOf_eq]
  obtain ⟨d, rest, hd⟩ := List.exists_cons_of_ne_nil (l := escape q cs ++ [q]) (by simp)
  have hlast : (escape q cs ++ [q]).getLast? = some q := by simp
  have hfront : (escape q cs ++ [q]).dropLast = escape q cs := by simp
  rw [hd] at hlast hfront ⊢
  rw [constant?, if_pos ⟨hq, hlast⟩, hfront, unescape_escape (ne_of_not_quote hq rfl)]

/-! ## 3. What is kept -/

/-- Resolving escapes drops backslashes only. -/
theorem count_dropBefore {a b x : Char} (hx : x ≠ a) (cs : List Char) :
    (dropBefore a b cs).count x = cs.count x := by
  fun_induction dropBefore a b cs with
  | case1 => rfl
  | case2 c => rfl
  | case3 c d cs h ih =>
    obtain ⟨rfl, rfl⟩ := h
    rw [List.count_cons, List.count_cons, List.count_cons, ih, beq_false_of_ne (Ne.symm hx)]
    rfl
  | case4 c d cs h ih => rw [List.count_cons, ih, List.count_cons (a := x) (b := c)]

theorem count_unescape {x : Char} (hx : x ≠ '\\') (cs : List Char) :
    (unescape q cs).count x = cs.count x := by
  rw [unescape, count_dropBefore hx, count_dropBefore hx]

/-- Escaping adds backslashes only. -/
theorem count_escape {x : Char} (hx : x ≠ '\\') : ∀ cs : List Char,
    (escape q cs).count x = cs.count x
  | [] => rfl
  | c :: cs => by
    by_cases hc : c = q ∨ c = '\\'
    · rw [escape_cons_special hc, List.count_cons, beq_false_of_ne (Ne.symm hx), List.count_cons,
        List.count_cons, count_escape hx cs]
      rfl
    · rw [escape_cons_plain hc, List.count_cons, List.count_cons, count_escape hx cs]

theorem count_constantOf {x : Char} (hx : x ≠ '\\') (hq : x ≠ q) (cs : List Char) :
    (constantOf q cs).count x = cs.count x := by
  rw [constantOf_eq, List.count_cons_of_ne (Ne.symm hq), List.count_append, count_escape hx,
    List.count_singleton, beq_false_of_ne (Ne.symm hq)]
  rfl

theorem strip_sublist (cs : List Char) : (strip cs).Sublist cs := by
  have hright := (List.dropWhile_sublist isBlank (l := (stripLeft cs).reverse)).reverse
  rw [List.reverse_reverse] at hright
  exact hright.trans (List.dropWhile_sublist isBlank)

/-- A constant does not stand for more than what is in it. -/
theorem count_constant? {x : Char} (hx : x ≠ '\\') {cs s : List Char} (h : constant? cs = some s) :
    s.count x ≤ cs.count x := by
  unfold constant? at h
  split at h
  · rename_i q d rest
    split at h
    · cases h
      rw [count_unescape hx]
      have hsub : ((d :: rest).dropLast).Sublist (q :: d :: rest) :=
        (List.dropLast_sublist _).trans (List.sublist_cons_self q _)
      exact hsub.count_le x
    · cases h
  · cases h

end TextTemplate.Text

namespace TextTemplate.Operand

open TextTemplate.Outcome TextTemplate.Text

/-! ## 4. Operands -/

/-- **A written constant is read as the text that was written.** -/
theorem read_constantOf {q : Char} (hq : isQuote q = true) (cs : List Char) :
    read (constantOf q cs) = .ok ⟨String.ofList (constantOf q cs), .text (String.ofList cs)⟩ := by
  unfold read
  dsimp only
  rw [strip_constantOf hq, constant?_constantOf hq]
  rfl

/-- An operand that stands for a text has been read from a constant. -/
theorem constant_of_read {cs : List Char} {o : Operand} {t : String} (h : read cs = .ok o)
    (ht : o.form = .text t) : ∃ s, constant? (strip cs) = some s ∧ t = String.ofList s := by
  have hmade : ∀ {form : OperandForm},
      (Except.ok ⟨String.ofList (strip cs), form⟩ : Except Cause Operand) = .ok o →
        form = .text t := by
    rintro form hok
    cases hok
    exact ht
  unfold read at h
  dsimp only at h
  split at h
  · rename_i s hs
    cases hmade h
    exact ⟨s, hs, rfl⟩
  · split at h
    · obtain ⟨form, hn, h⟩ := except_bind_eq_ok h
      obtain ⟨n, -, rfl⟩ := except_map_eq_ok hn
      exact nomatch hmade h
    · split at h
      · obtain ⟨a, -, h⟩ := except_bind_eq_ok h
        obtain ⟨b, -, h⟩ := except_bind_eq_ok h
        exact nomatch hmade h
      · split at h
        · cases h
        · exact nomatch hmade h

end TextTemplate.Operand
