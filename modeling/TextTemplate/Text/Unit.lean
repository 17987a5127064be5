/-
# Units of a text

Conditions and lists of values are cut at blanks, but a blank inside a string constant does not
cut.  A unit is either a run of constants with blank-free and quote-free text around them, or,
where no closed constant follows, a plain run up to the next blank.

* `constantRun` reads as many constants as follow each other;
* `firstUnit` reads one unit, and `units` all of them;
* `spaced` puts units together again: like the cutting, it changes nothing but blanks.
-/
import TextTemplate.Text.Blank
import TextTemplate.Text.Constant

namespace TextTemplate.Text

/-- Is the character neither blank nor a quote? -/
def isBare (c : Char) : Bool := !isBlank c && !isQuote c

/-- The longest run of closed constants, each with the bare text behind it, and the rest. -/
def constantRun (cs : List Char) : List Char × List Char :=
  match cs with
  | [] => ([], [])
  | q :: after =>
    if isQuote q then
      match _h : takeConstant q after with
      | none => ([], q :: after)
      | some (body, rest) =>
        let tail := constantRun (rest.dropWhile isBare)
        (q :: body ++ rest.takeWhile isBare ++ tail.1, tail.2)
    else ([], q :: after)
termination_by cs.length
decreasing_by
  have := takeConstant_rest_lt _h
  have := (List.dropWhile_sublist isBare (l := rest)).length_le
  simp only [List.length_cons]
  omega

/-- **A run and its rest make up the text.** -/
theorem constantRun_append (cs : List Char) : (constantRun cs).1 ++ (constantRun cs).2 = cs := by
  fun_induction constantRun cs with
  | case1 => rfl
  | case2 => rfl
  | case3 q after hq body rest h tail ih =>
    have := (takeConstant_append h).1
    subst this
    simp only [tail, List.append_assoc, List.cons_append, ih, List.takeWhile_append_dropWhile]
  | case4 => rfl

/-- The unit that a text begins with, and the rest.  The first character is not blank. -/
def firstUnit (cs : List Char) : List Char × List Char :=
  let run := constantRun (cs.dropWhile isBare)
  if run.1.isEmpty then (cs.takeWhile (!isBlank ·), cs.dropWhile (!isBlank ·))
  else (cs.takeWhile isBare ++ run.1, run.2)

/-- **A unit and its rest make up the text.** -/
theorem firstUnit_append (cs : List Char) : (firstUnit cs).1 ++ (firstUnit cs).2 = cs := by
  simp only [firstUnit]
  split
  · exact List.takeWhile_append_dropWhile
  · rw [List.append_assoc, constantRun_append]
    exact List.takeWhile_append_dropWhile

/-- A unit that begins with a character that is not blank is not empty. -/
theorem firstUnit_ne_nil {c : Char} {cs : List Char} (hc : isBlank c = false) :
    (firstUnit (c :: cs)).1 ≠ [] := by
  simp only [firstUnit]
  split
  · simp [hc]
  · rename_i h
    intro hnil
    exact h (by simpa using (List.append_eq_nil_iff.mp hnil).2)

theorem firstUnit_rest_lt {c : Char} {cs : List Char} (hc : isBlank c = false) :
    (firstUnit (c :: cs)).2.length < (c :: cs).length := by
  have h1 := congrArg List.length (firstUnit_append (c :: cs))
  have h2 := List.length_pos_iff.mpr (@firstUnit_ne_nil c cs hc)
  simp only [List.length_append] at h1
  omega

/-- All units of a text, in order. -/
def units (cs : List Char) : List (List Char) :=
  match cs with
  | [] => []
  | c :: rest =>
    if _hc : isBlank c then units rest
    else (firstUnit (c :: rest)).1 :: units (firstUnit (c :: rest)).2
termination_by cs.length
decreasing_by
  · simp
  · exact firstUnit_rest_lt (by simpa using _hc)

/-! ## Units put together again -/

/-- The characters of a text that are not blank. -/
def visible (cs : List Char) : List Char := cs.filter (!isBlank ·)

/-- Texts with a space between neighbours. -/
def spaced : List (List Char) → List Char
  | [] => []
  | [t] => t
  | t :: u :: ts => t ++ ' ' :: spaced (u :: ts)

@[simp] theorem visible_append (cs ds : List Char) :
    visible (cs ++ ds) = visible cs ++ visible ds :=
  List.filter_append ..

/-- **Cutting a text into units drops nothing but blanks.** -/
theorem visible_units (cs : List Char) : (units cs).flatMap visible = visible cs := by
  fun_induction units cs with
  | case1 => rfl
  | case2 c rest hc ih => simp [ih, visible, hc]
  | case3 c rest hc ih =>
    rw [List.flatMap_cons, ih, ← visible_append, firstUnit_append]

/-- Spaces between texts add nothing but blanks. -/
theorem visible_spaced : ∀ ts : List (List Char), visible (spaced ts) = ts.flatMap visible
  | [] => rfl
  | [t] => by simp [spaced]
  | t :: u :: ts => by
    have h : visible (' ' :: spaced (u :: ts)) = visible (spaced (u :: ts)) := rfl
    rw [spaced, visible_append, h, visible_spaced (u :: ts)]
    rfl

end TextTemplate.Text
