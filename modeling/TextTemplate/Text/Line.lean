/-
# Lines

Lines end with a line feed and nothing else.  Positions count characters.

* `newlines` counts the line feeds of a text;
* `lineEnds` lists where the lines of a text end, each end just behind its line feed, with a
  leading 0 and with one past the end of the text for the last line.
-/

namespace TextTemplate.Text

/-- The number of line feeds in a text. -/
def newlines (cs : List Char) : Nat := cs.count '\n'

/-- The positions behind the line feeds of a text that starts at position `at0`. -/
def behindNewlines (at0 : Nat) : List Char → List Nat
  | [] => []
  | c :: cs =>
    if c = '\n' then (at0 + 1) :: behindNewlines (at0 + 1) cs else behindNewlines (at0 + 1) cs

/-- Where the lines of a text end.  The first entry, 0, ends an empty line in front of the text,
so the other entries are numbered from 1. -/
def lineEnds (cs : List Char) : List Nat := 0 :: behindNewlines 0 cs ++ [cs.length + 1]

/-- **There are two more entries than line feeds.** -/
theorem length_lineEnds (cs : List Char) : (lineEnds cs).length = newlines cs + 2 := by
  have h : ∀ (cs : List Char) (n : Nat), (behindNewlines n cs).length = newlines cs := by
    intro cs
    induction cs with
    | nil => intro n; rfl
    | cons c cs ih =>
      intro n
      by_cases hc : c = '\n' <;> simp_all [behindNewlines, newlines]
  simp [lineEnds, h]

end TextTemplate.Text
