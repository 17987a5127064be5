/-
# The lines of a source

The lines of a source are described in two ways.  `lines` cuts the source itself: each line is a
text and ends with its line feed, except the last one.  `numberedLines` only counts: a line is a
number and the two positions between which it stands.  Here the two are the same
(`texts_numberedLines`), and the line that holds a stretch of the source is found: there is exactly
one if no line feed is inside the stretch, and none otherwise (`filter_linesAt`).

Everything is proved line by line (`lineRec`): a text is a line without a line feed, or such a line,
a line feed, and a text.
-/
import TextTemplate.DebugInfo

namespace TextTemplate

namespace Text

/-! ## 1. The lines as texts -/

/-- The lines of a text, each with the line feed that ends it.  The last one has none. -/
def lines : List Char → List (List Char)
  | [] => [[]]
  | c :: cs =>
    if c = '\n' then ['\n'] :: lines cs
    else
      match lines cs with
      | [] => [[c]]
      | line :: rest => (c :: line) :: rest

/-- The line with a number.  Lines are numbered from 1; an empty one stands in front of them. -/
def lineAt (cs : List Char) : (number : Nat) → List Char
  | 0 => []
  | number + 1 => ((lines cs)[number]?).getD []

/-- Line by line: a last line, or a line with its line feed and what comes after it. -/
theorem lineRec {P : List Char → Prop} (last : ∀ line, '\n' ∉ line → P line)
    (next : ∀ line rest, '\n' ∉ line → P rest → P (line ++ '\n' :: rest)) : ∀ cs, P cs := by
  intro cs
  induction h : cs.length using Nat.strongRecOn generalizing cs with
  | ind n ih =>
    by_cases hfeed : '\n' ∈ cs
    · obtain ⟨line, rest, rfl, hline⟩ := List.eq_append_cons_of_mem hfeed
      have hshort : rest.length < n := by
        rw [← h, List.length_append, List.length_cons]
        omega
      exact next line rest hline (ih rest.length hshort rest rfl)
    · exact last cs hfeed

theorem lines_of_not_mem : ∀ {line : List Char}, '\n' ∉ line → lines line = [line]
  | [], _ => rfl
  | c :: line, h => by
    obtain ⟨hc, hline⟩ := not_or.mp (mt List.mem_cons.mpr h)
    rw [lines, if_neg (Ne.symm hc), lines_of_not_mem hline]

theorem lines_append {rest : List Char} : ∀ {line : List Char}, '\n' ∉ line →
    lines (line ++ '\n' :: rest) = (line ++ ['\n']) :: lines rest
  | [], _ => rfl
  | c :: line, h => by
    obtain ⟨hc, hline⟩ := not_or.mp (mt List.mem_cons.mpr h)
    rw [List.cons_append, lines, if_neg (Ne.symm hc), lines_append hline]
    rfl

/-- There is one line more than line feeds. -/
theorem length_lines (cs : List Char) : (lines cs).length = newlines cs + 1 := by
  induction cs using lineRec with
  | last line h => rw [lines_of_not_mem h, newlines, List.count_eq_zero_of_not_mem h]; rfl
  | next line rest h ih =>
    rw [lines_append h, List.length_cons, ih, newlines, newlines, List.count_append,
      List.count_eq_zero_of_not_mem h, List.count_cons_self, Nat.zero_add]

theorem behindNewlines_of_not_mem : ∀ {line : List Char} {p : Nat}, '\n' ∉ line →
    behindNewlines p line = []
  | [], _, _ => rfl
  | c :: line, p, h => by
    obtain ⟨hc, hline⟩ := not_or.mp (mt List.mem_cons.mpr h)
    rw [behindNewlines, if_neg (Ne.symm hc), behindNewlines_of_not_mem hline]

theorem behindNewlines_append {rest : List Char} : ∀ {line : List Char} {p : Nat}, '\n' ∉ line →
    behindNewlines p (line ++ '\n' :: rest) =
      (p + line.length + 1) :: behindNewlines (p + line.length + 1) rest
  | [], p, _ => by
    rw [List.nil_append, behindNewlines, if_pos rfl]
    rfl
  | c :: line, p, h => by
    obtain ⟨hc, hline⟩ := not_or.mp (mt List.mem_cons.mpr h)
    rw [List.cons_append, behindNewlines, if_neg (Ne.symm hc), behindNewlines_append hline,
      List.length_cons, Nat.add_right_comm p 1, Nat.add_assoc p]

end Text

open TextTemplate.Text

/-! ## 2. The lines by their positions -/

/-- The lines of a text that starts at a position, numbered from some number on. -/
def linesAt (number start : Nat) (cs : List Char) : List Line :=
  linesFrom number start (behindNewlines start cs ++ [start + cs.length + 1])

/-- An empty line stands in front of the first. -/
theorem numberedLines_eq (source : List Char) :
    numberedLines source = ⟨0, 0, 0⟩ :: linesAt 1 0 source := by
  unfold numberedLines lineEnds linesAt
  rw [Nat.zero_add]
  rfl

theorem linesAt_of_not_mem {line : List Char} (number start : Nat) (h : '\n' ∉ line) :
    linesAt number start line = [⟨number, start, start + line.length + 1⟩] := by
  rw [linesAt, behindNewlines_of_not_mem h]
  rfl

theorem linesAt_append {line rest : List Char} (number start : Nat) (h : '\n' ∉ line) :
    linesAt number start (line ++ '\n' :: rest) =
      ⟨number, start, start + line.length + 1⟩ ::
        linesAt (number + 1) (start + line.length + 1) rest := by
  have hend : start + (line ++ '\n' :: rest).length + 1 =
      start + line.length + 1 + rest.length + 1 := by
    rw [List.length_append, List.length_cons]
    omega
  rw [linesAt, behindNewlines_append h, hend]
  rfl

theorem length_linesFrom : ∀ (number start : Nat) (ends : List Nat),
    (linesFrom number start ends).length = ends.length
  | _, _, [] => rfl
  | number, _, stop :: ends => congrArg (· + 1) (length_linesFrom (number + 1) stop ends)

/-- There are two more numbered lines than line feeds. -/
theorem length_numberedLines (source : List Char) :
    (numberedLines source).length = newlines source + 2 := by
  rw [numberedLines, length_linesFrom, length_lineEnds]

/-! ## 3. What stands in a line -/

/-- The text between two positions that are not out of order. -/
theorem slice_eq_extract (start stop : Nat) (cs : List Char) :
    slice start stop cs = cs.extract start stop := by
  rw [slice, if_neg (by omega), Int.toNat_natCast]

/-- A number, and what stands in the line with that number. -/
def Line.text (source : List Char) (l : Line) : Nat × List Char :=
  (l.number, source.extract l.start l.stop)

theorem texts_linesAt (cs : List Char) : ∀ (before : List Char) (number : Nat),
    (linesAt number before.length cs).map (Line.text (before ++ cs)) =
      ((lines cs).zipIdx number).map Prod.swap := by
  induction cs using lineRec with
  | last line h =>
    intro before number
    have htext :
        (before ++ line).extract before.length (before.length + line.length + 1) = line := by
      rw [List.extract, List.drop_left, List.take_of_length_le (by omega)]
    rw [linesAt_of_not_mem number before.length h, lines_of_not_mem h]
    exact congrArg (fun text => [(number, text)]) htext
  | next line rest h ih =>
    intro before number
    have hlength : (before ++ (line ++ ['\n'])).length = before.length + line.length + 1 := by
      rw [List.length_append, List.length_append, List.length_singleton, Nat.add_assoc]
    have hsplit : before ++ (line ++ '\n' :: rest) = before ++ (line ++ ['\n']) ++ rest := by
      rw [List.append_assoc, List.append_assoc]
      rfl
    have htext : (before ++ (line ++ '\n' :: rest)).extract before.length
        (before.length + line.length + 1) = line ++ ['\n'] := by
      rw [hsplit, List.extract, List.append_assoc, List.drop_left]
      refine List.take_left' ?_
      rw [List.length_append, List.length_singleton]
      omega
    have hrest := ih (before ++ (line ++ ['\n'])) (number + 1)
    rw [hlength, ← hsplit] at hrest
    rw [linesAt_append number before.length h, lines_append h, List.map_cons, hrest,
      List.zipIdx_cons, List.map_cons]
    exact congrArg (fun text => (number, text) :: _) htext

/-- **The numbered lines are the lines of the source**, each with its number. -/
theorem texts_numberedLines (source : List Char) :
    (numberedLines source).map (Line.text source) =
      (List.range (newlines source + 2)).map fun number => (number, lineAt source number) := by
  have htexts := texts_linesAt source [] 1
  rw [List.nil_append] at htexts
  rw [numberedLines_eq, List.map_cons]
  refine (congrArg (_ :: ·) htexts).trans (List.ext_getElem? fun number => ?_)
  cases number with
  | zero =>
    rw [List.getElem?_map, List.getElem?_range (Nat.succ_pos _)]
    rfl
  | succ number =>
    rw [List.getElem?_cons_succ, List.getElem?_map, List.getElem?_map, List.getElem?_zipIdx]
    by_cases hlt : number < newlines source + 1
    · have hline : number < (lines source).length := length_lines source ▸ hlt
      rw [List.getElem?_range (Nat.succ_lt_succ hlt), List.getElem?_eq_getElem hline]
      simp only [Option.map_some, Prod.swap_prod_mk, lineAt, List.getElem?_eq_getElem hline,
        Option.getD_some, Nat.add_comm 1]
    · have hline : (lines source).length ≤ number := length_lines source ▸ Nat.le_of_not_lt hlt
      have hrange : (List.range (newlines source + 2)).length ≤ number + 1 := by
        rw [List.length_range]
        omega
      rw [List.getElem?_eq_none hline, List.getElem?_eq_none hrange]
      rfl

/-- What stands in a numbered line. -/
theorem extract_of_mem_numberedLines {source : List Char} {l : Line}
    (h : l ∈ numberedLines source) : source.extract l.start l.stop = lineAt source l.number := by
  have hmem := List.mem_map_of_mem (f := Line.text source) h
  rw [texts_numberedLines] at hmem
  obtain ⟨number, -, htext⟩ := List.mem_map.mp hmem
  obtain ⟨hnumber, hextract⟩ := Prod.mk.inj htext
  rw [← hextract, hnumber]

/-! ## 4. The line of a stretch -/

/-- A stretch of a text lies in one line: if it holds a line feed, then as its last character. -/
def InOneLine (cs : List Char) (start stop : Nat) : Prop := '\n' ∉ cs.extract start (stop - 1)

instance (cs : List Char) (start stop : Nat) : Decidable (InOneLine cs start stop) :=
  inferInstanceAs (Decidable (¬_))

/-- The line holds the stretch. -/
def Line.holds (start stop : Nat) (l : Line) : Bool := l.start ≤ start ∧ stop ≤ l.stop

theorem holds_iff {start stop : Nat} {l : Line} :
    l.holds start stop = true ↔ l.start ≤ start ∧ stop ≤ l.stop := decide_eq_true_iff

/-- No line of a text starts in front of the text. -/
theorem le_start_of_linesAt {cs : List Char} : ∀ {number start : Nat} {l : Line},
    l ∈ linesAt number start cs → start ≤ l.start := by
  induction cs using lineRec with
  | last line h =>
    intro number start l hl
    rw [linesAt_of_not_mem number start h] at hl
    obtain rfl := List.mem_singleton.mp hl
    exact Nat.le_refl start
  | next line rest h ih =>
    intro number start l hl
    rw [linesAt_append number start h] at hl
    rcases List.mem_cons.mp hl with rfl | hl
    · exact Nat.le_refl start
    · have hbehind := ih hl
      omega

section FirstLine

variable {line rest : List Char} {i j : Nat}

/-- A stretch that starts in the first line lies in one line if it ends there. -/
theorem inOneLine_first_iff (h : '\n' ∉ line) (hi : i ≤ line.length) (hlt : i < j) :
    InOneLine (line ++ '\n' :: rest) i j ↔ j ≤ line.length + 1 := by
  constructor
  · intro hone
    refine Nat.le_of_not_lt fun hbehind => hone (List.mem_of_getElem? (i := line.length - i) ?_)
    rw [List.extract, List.getElem?_take_of_lt (by omega), List.getElem?_drop,
      Nat.add_sub_cancel' hi, List.getElem?_append_right (Nat.le_refl _), Nat.sub_self]
    rfl
  · intro hend hmem
    rw [List.extract, List.drop_append_of_le_length hi,
      List.take_append_of_le_length (by rw [List.length_drop]; omega)] at hmem
    exact h (List.mem_of_mem_drop (List.mem_of_mem_take hmem))

theorem inOneLine_behind_iff :
    InOneLine (line ++ '\n' :: rest) (line.length + 1 + i) (line.length + 1 + j) ↔
      InOneLine rest i j := by
  have hdrop : (line ++ '\n' :: rest).drop (line.length + 1 + i) = rest.drop i := by
    rw [Nat.add_assoc, List.drop_length_add_append, Nat.add_comm 1, List.drop_succ_cons]
  have hwidth : line.length + 1 + j - 1 - (line.length + 1 + i) = j - 1 - i := by omega
  rw [InOneLine, InOneLine, List.extract, List.extract, hdrop, hwidth]

/-- No line feed stands in front of a place in the first line. -/
theorem newlines_take_first (h : '\n' ∉ line) (hi : i ≤ line.length) :
    newlines ((line ++ '\n' :: rest).take i) = 0 := by
  rw [List.take_append_of_le_length hi]
  exact List.count_eq_zero_of_not_mem fun hmem => h (List.mem_of_mem_take hmem)

theorem newlines_take_behind (h : '\n' ∉ line) :
    newlines ((line ++ '\n' :: rest).take (line.length + 1 + i)) = newlines (rest.take i) + 1 := by
  have hcut : (line ++ '\n' :: rest).take (line.length + 1 + i) = line ++ '\n' :: rest.take i := by
    rw [Nat.add_assoc, List.take_length_add_append, Nat.add_comm 1, List.take_succ_cons]
  rw [hcut, newlines, newlines, List.count_append, List.count_eq_zero_of_not_mem h,
    List.count_cons_self, Nat.zero_add]

end FirstLine

/-- **The line that holds a stretch.**  If the stretch lies in one line, exactly that line holds it,
and its number is the number of line feeds in front of the stretch, counted on; otherwise no line
holds it. -/
theorem filter_linesAt {cs : List Char} : ∀ (number p : Nat) {i j : Nat}, i < j → j ≤ cs.length →
    (InOneLine cs i j → ∃ l, (linesAt number p cs).filter (Line.holds (p + i) (p + j)) = [l] ∧
      l.number = number + newlines (cs.take i)) ∧
    (¬InOneLine cs i j → (linesAt number p cs).filter (Line.holds (p + i) (p + j)) = []) := by
  induction cs using lineRec with
  | last line h =>
    intro number p i j hlt hj
    have hnone : ∀ start stop, '\n' ∉ line.extract start stop := fun _ _ hmem =>
      h (List.mem_of_mem_drop (List.mem_of_mem_take hmem))
    refine ⟨fun _ => ⟨⟨number, p, p + line.length + 1⟩, ?_, ?_⟩,
      fun hmany => absurd (hnone _ _) hmany⟩
    · have hholds : Line.holds (p + i) (p + j) ⟨number, p, p + line.length + 1⟩ = true :=
        holds_iff.mpr ⟨Nat.le_add_right p i, by dsimp only; omega⟩
      rw [linesAt_of_not_mem number p h, List.filter_cons_of_pos hholds, List.filter_nil]
    · have htake : '\n' ∉ line.take i := fun hmem => h (List.mem_of_mem_take hmem)
      rw [newlines, List.count_eq_zero_of_not_mem htake]
      rfl
  | next line rest h ih =>
    intro number p i j hlt hj
    have hlength : (line ++ '\n' :: rest).length = line.length + 1 + rest.length := by
      rw [List.length_append, List.length_cons, Nat.add_right_comm, Nat.add_assoc]
    rw [linesAt_append number p h]
    by_cases hi : i ≤ line.length
    · -- a line behind the first one starts behind the stretch
      have hothers : (linesAt (number + 1) (p + line.length + 1) rest).filter
          (Line.holds (p + i) (p + j)) = [] := by
        refine List.filter_eq_nil_iff.mpr fun l hl hholds => ?_
        have hle := le_start_of_linesAt hl
        have hstart := (holds_iff.mp hholds).1
        omega
      have hholds : Line.holds (p + i) (p + j) ⟨number, p, p + line.length + 1⟩ = true ↔
          InOneLine (line ++ '\n' :: rest) i j := by
        rw [holds_iff, inOneLine_first_iff h hi hlt]
        dsimp only
        omega
      refine ⟨fun hone => ⟨⟨number, p, p + line.length + 1⟩, ?_, ?_⟩, fun hmany => ?_⟩
      · rw [List.filter_cons_of_pos (hholds.mpr hone), hothers]
      · rw [newlines_take_first h hi]
        rfl
      · rw [List.filter_cons_of_neg (mt hholds.mp hmany), hothers]
    · -- the first line ends in front of the stretch
      obtain ⟨i, rfl⟩ := Nat.exists_eq_add_of_le (Nat.gt_of_not_le hi)
      obtain ⟨j, rfl⟩ :=
        Nat.exists_eq_add_of_le (Nat.le_trans (Nat.le_add_right _ i) (Nat.le_of_lt hlt))
      have hnot : ¬Line.holds (p + (line.length + 1 + i)) (p + (line.length + 1 + j))
          ⟨number, p, p + line.length + 1⟩ = true := by
        rw [holds_iff]
        dsimp only
        omega
      have hrest := ih (number + 1) (p + line.length + 1) (i := i) (j := j) (by omega) (by omega)
      have hshift : ∀ k, p + (line.length + 1 + k) = p + line.length + 1 + k := fun k => by omega
      rw [List.filter_cons_of_neg hnot, inOneLine_behind_iff, newlines_take_behind h, hshift,
        hshift, Nat.add_comm (newlines _) 1, ← Nat.add_assoc number]
      exact hrest

end TextTemplate
