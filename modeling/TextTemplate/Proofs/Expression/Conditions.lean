/-
# How conditions are read

A text is cut at the blanks that stand outside its constants: this is `pieces`, one reader from left
to right.  Where every constant of a text is closed, its units are these pieces, and putting pieces
together with spaces and cutting them again gives the same ones back.

So a condition that is written as some negations, an operand, an operator and another operand is
read as just that (`Condition.read_written`), however many times its text is put together and cut,
and whatever stands inside the constants of its operands.
-/
import Mathlib.Data.List.TakeWhile
import Mathlib.Logic.Function.Iterate
import TextTemplate.Expression.Condition
import TextTemplate.Proofs.Expression.Constants
import TextTemplate.Proofs.Expression.Readers

namespace TextTemplate.Text

open Reading

/-! ## 1. Pieces -/

/-- The pieces of a text between the blanks outside its constants; `piece` is the piece read so
far, backwards. -/
def piecesFrom (r : Reading) (piece : List Char) : List Char → List (List Char)
  | [] => if piece.isEmpty then [] else [piece.reverse]
  | c :: cs =>
    if r = outside ∧ isBlank c then
      if piece.isEmpty then piecesFrom outside [] cs else piece.reverse :: piecesFrom outside [] cs
    else piecesFrom (r.next c) (c :: piece) cs

/-- The pieces of a text. -/
def pieces (cs : List Char) : List (List Char) := piecesFrom outside [] cs

/-- The text with one space for each row of blanks outside its constants, and none at the ends. -/
def reduced (cs : List Char) : List Char := spaced (pieces cs)

/-- Every character is blank, and there is one. -/
def IsGap (cs : List Char) : Prop := cs ≠ [] ∧ ∀ c ∈ cs, isBlank c = true

variable {r : Reading} {c : Char} {cs ds piece : List Char}

theorem not_isQuote_of_isBlank (hc : isBlank c = true) : isQuote c = false := by
  cases hquote : isQuote c with
  | false => rfl
  | true =>
    rw [not_blank hquote] at hc
    cases hc

theorem not_isQuote_of_isBare (hc : isBare c = true) : isQuote c = false := by
  simpa using (Bool.and_eq_true_iff.mp hc).2

theorem next_outside_of_isBlank (hc : isBlank c = true) : outside.next c = outside :=
  next_outside_of_not_quote (not_isQuote_of_isBlank hc)

/-- Text without quotes leaves a reader outside. -/
theorem through_of_no_quote : ∀ {cs : List Char}, (∀ c ∈ cs, isQuote c = false) →
    outside.through cs = outside
  | [], _ => rfl
  | c :: cs, h => by
    obtain ⟨hc, hcs⟩ := List.forall_mem_cons.mp h
    rw [through_cons, next_outside_of_not_quote hc, through_of_no_quote hcs]

theorem isClosed_of_no_quote (h : ∀ c ∈ cs, isQuote c = false) : isClosed cs = true :=
  decide_eq_true (through_of_no_quote h)

/-- Blanks in front are passed over. -/
theorem piecesFrom_blanks : ∀ {cs : List Char}, (∀ c ∈ cs, isBlank c = true) →
    piecesFrom outside [] (cs ++ ds) = pieces ds
  | [], _ => rfl
  | c :: cs, h => by
    obtain ⟨hc, hcs⟩ := List.forall_mem_cons.mp h
    rw [List.cons_append, piecesFrom, if_pos ⟨rfl, hc⟩]
    exact piecesFrom_blanks hcs

/-- **A blank outside all constants separates**: the pieces are those in front and those behind. -/
theorem piecesFrom_append_blank (hc : isBlank c = true) : ∀ {cs : List Char} {r : Reading}
    {piece : List Char}, r.through cs = outside →
      piecesFrom r piece (cs ++ c :: ds) = piecesFrom r piece cs ++ pieces ds
  | [], r, piece, hr => by
    have hr' : r = outside := hr
    subst hr'
    simp only [List.nil_append, piecesFrom, hc, and_self, if_true]
    split <;> rfl
  | d :: cs, r, piece, hr => by
    rw [List.cons_append, piecesFrom, piecesFrom]
    split
    · rename_i hd
      obtain ⟨rfl, hblank⟩ := hd
      rw [through_cons, next_outside_of_isBlank hblank] at hr
      rw [piecesFrom_append_blank hc hr]
      split <;> rfl
    · exact piecesFrom_append_blank hc (by rwa [through_cons] at hr)

/-- The same with several blanks. -/
theorem pieces_append_gap {gap : List Char} (hcs : isClosed cs = true) (hgap : IsGap gap) :
    pieces (cs ++ (gap ++ ds)) = pieces cs ++ pieces ds := by
  obtain ⟨c, blanks, rfl⟩ := List.exists_cons_of_ne_nil hgap.1
  obtain ⟨hc, hblanks⟩ := List.forall_mem_cons.mp hgap.2
  have hthrough : outside.through cs = outside := of_decide_eq_true hcs
  rw [List.cons_append, pieces, piecesFrom_append_blank hc hthrough]
  exact congrArg (pieces cs ++ ·) (piecesFrom_blanks hblanks)

theorem isClosed_append (hcs : isClosed cs = true) (hds : isClosed ds = true) :
    isClosed (cs ++ ds) = true := by
  have hthrough : outside.through cs = outside := of_decide_eq_true hcs
  refine decide_eq_true ?_
  rw [through_append, hthrough]
  exact of_decide_eq_true hds

theorem IsGap.isClosed {gap : List Char} (h : IsGap gap) : isClosed gap = true :=
  isClosed_of_no_quote fun c hc => not_isQuote_of_isBlank (h.2 c hc)

/-! ## 2. One piece -/

/-- The text is a piece by itself: its constants are closed, and no blank stands outside them. -/
structure IsPiece (u : List Char) : Prop where
  closed : isClosed u = true
  pieces : pieces u = [u]

/-- Each piece of a closed text is one by itself; `piece` is what has been read of the first. -/
theorem isPiece_of_mem : ∀ {cs : List Char} {r : Reading} {piece : List Char},
    outside.through piece.reverse = r →
      (∀ ds, pieces (piece.reverse ++ ds) = piecesFrom r piece ds) →
        r.through cs = outside → ∀ u ∈ piecesFrom r piece cs, IsPiece u
  | [], r, piece, hr, hpiece, hcs, u, hu => by
    have hr' : r = outside := hcs
    subst hr'
    have hwhole := hpiece []
    rw [List.append_nil, piecesFrom] at hwhole
    rw [piecesFrom] at hu
    split at hu
    · cases hu
    · rename_i hne
      rw [if_neg hne] at hwhole
      rw [List.mem_singleton] at hu
      exact hu ▸ ⟨decide_eq_true hr, hwhole⟩
  | c :: cs, r, piece, hr, hpiece, hcs, u, hu => by
    rw [piecesFrom] at hu
    split at hu
    · rename_i hblank
      obtain ⟨rfl, hc⟩ := hblank
      rw [through_cons, next_outside_of_isBlank hc] at hcs
      have hrest := @isPiece_of_mem cs outside [] rfl (fun _ => rfl) hcs u
      split at hu
      · exact hrest hu
      · rename_i hne
        have hwhole := hpiece []
        rw [List.append_nil, piecesFrom, if_neg hne] at hwhole
        rcases List.mem_cons.mp hu with rfl | hu
        · exact ⟨decide_eq_true hr, hwhole⟩
        · exact hrest hu
    · rename_i hblank
      refine isPiece_of_mem ?_ (fun ds => ?_) (by rwa [through_cons] at hcs) u hu
      · rw [List.reverse_cons, through_append, hr]
        rfl
      · have hlonger := hpiece (c :: ds)
        rw [piecesFrom, if_neg hblank] at hlonger
        rw [List.reverse_cons, List.append_assoc]
        exact hlonger

/-- **The pieces of a closed text** are pieces by themselves. -/
theorem isPiece_of_mem_pieces (h : isClosed cs = true) : ∀ u ∈ pieces cs, IsPiece u :=
  isPiece_of_mem rfl (fun _ => rfl) (of_decide_eq_true h)

theorem isGap_space : IsGap [' '] := ⟨List.cons_ne_nil _ _, List.forall_mem_singleton.mpr rfl⟩

/-- **Pieces put together with spaces are cut into the same pieces.** -/
theorem pieces_spaced : ∀ {us : List (List Char)}, (∀ u ∈ us, IsPiece u) →
    isClosed (spaced us) = true ∧ pieces (spaced us) = us
  | [], _ => ⟨rfl, rfl⟩
  | [u], h => ⟨(h u List.mem_cons_self).closed, (h u List.mem_cons_self).pieces⟩
  | u :: v :: us, h => by
    obtain ⟨hu, hrest⟩ := List.forall_mem_cons.mp h
    obtain ⟨hclosed, hpieces⟩ := pieces_spaced hrest
    refine ⟨?_, ?_⟩
    · exact isClosed_append hu.closed (isClosed_append isGap_space.isClosed hclosed)
    · calc pieces (u ++ ' ' :: spaced (v :: us))
          = pieces u ++ pieces (spaced (v :: us)) := pieces_append_gap hu.closed isGap_space
        _ = u :: v :: us := by rw [hu.pieces, hpieces, List.singleton_append]

/-! ## 3. Units are pieces -/

/-- The text is empty or begins with a blank. -/
def AtBlank (cs : List Char) : Prop := ∀ c ∈ cs.head?, isBlank c = true

/-- Inside a constant nothing separates. -/
theorem piecesFrom_cons_inside (hr : r ≠ outside) :
    piecesFrom r piece (c :: cs) = piecesFrom (r.next c) (c :: piece) cs :=
  if_neg fun h => hr h.1

/-- Inside a constant of a closed text there is its end, and the text is read on behind it. -/
theorem takeConstant_of_closed {q : Char} : ∀ {cs : List Char}, (inside q).through cs = outside →
    ∃ body rest, takeConstant q cs = some (body, rest) ∧ isClosed rest = true ∧
      ∀ piece, piecesFrom (inside q) piece cs = piecesFrom outside (body.reverse ++ piece) rest
  | [], h => by cases h
  | [c], h => by
    by_cases hback : c = '\\'
    · subst hback
      cases h
    · by_cases hc : c = q
      · subst hc
        refine ⟨[c], [], by simp [takeConstant], rfl, fun piece => ?_⟩
        simp [piecesFrom]
      · rw [through_cons, next_inside_of_ne hback hc] at h
        cases h
  | c :: d :: cs, h => by
    by_cases hback : c = '\\'
    · subst hback
      by_cases hd : d = '\n'
      · subst hd
        have hbroken : (inside q).through ('\\' :: '\n' :: cs) = broken := through_broken cs
        cases hbroken.symm.trans h
      · have hrest : (inside q).through cs = outside := by
          rwa [through_cons, through_cons, next_escape hd] at h
        obtain ⟨body, rest, htake, hclosed, hpieces⟩ := takeConstant_of_closed hrest
        refine ⟨'\\' :: d :: body, rest, by simp [takeConstant, hd, htake], hclosed,
          fun piece => ?_⟩
        have hescaped : (inside q).next '\\' = escaped q := by simp [Reading.next]
        rw [piecesFrom_cons_inside (by simp), piecesFrom_cons_inside (by simp [hescaped]),
          next_escape hd, hpieces]
        simp
    · by_cases hc : c = q
      · subst hc
        have hnext : (inside c).next c = outside := by simp [Reading.next, hback]
        rw [through_cons, hnext] at h
        refine ⟨[c], d :: cs, by simp [takeConstant, hback], decide_eq_true h, fun piece => ?_⟩
        rw [piecesFrom_cons_inside (by simp), hnext]
        rfl
      · have hnext := next_inside_of_ne hback hc
        rw [through_cons, hnext] at h
        obtain ⟨body, rest, htake, hclosed, hpieces⟩ := takeConstant_of_closed h
        refine ⟨c :: body, rest, by simp [takeConstant, hback, hc, htake], hclosed,
          fun piece => ?_⟩
        rw [piecesFrom_cons_inside (by simp), hnext, hpieces]
        simp

/-- Bare text is read into the piece. -/
theorem piecesFrom_bare : ∀ {cs piece : List Char}, (∀ c ∈ cs, isBare c = true) →
    piecesFrom outside piece (cs ++ ds) = piecesFrom outside (cs.reverse ++ piece) ds
  | [], _, _ => rfl
  | c :: cs, piece, h => by
    obtain ⟨hc, hcs⟩ := List.forall_mem_cons.mp h
    simp only [isBare, Bool.and_eq_true, Bool.not_eq_true'] at hc
    rw [List.cons_append, piecesFrom, if_neg (by simp [hc.1]), next_outside_of_not_quote hc.2,
      piecesFrom_bare hcs, List.reverse_cons, List.append_assoc]
    rfl

/-- Behind the bare text that it begins with, a closed text is closed. -/
theorem isClosed_dropWhile (h : isClosed cs = true) : isClosed (cs.dropWhile isBare) = true := by
  have hthrough : outside.through cs = outside := of_decide_eq_true h
  rw [← List.takeWhile_append_dropWhile (p := isBare) (l := cs), through_append,
    through_of_no_quote fun c hc => not_isQuote_of_isBare (List.mem_takeWhile_imp hc)] at hthrough
  exact decide_eq_true hthrough

theorem not_isBare_head_dropWhile : ∀ c ∈ (cs.dropWhile isBare).head?, isBare c = false := by
  intro c hc
  have := List.head?_dropWhile_not isBare cs
  rw [hc] at this
  exact this

/-- **A row of constants in a closed text** goes on up to the next blank. -/
theorem constantRun_of_closed (h : isClosed cs = true) (hhead : ∀ c ∈ cs.head?, isBare c = false) :
    isClosed (constantRun cs).2 = true ∧ AtBlank (constantRun cs).2 ∧
      ∀ piece, piecesFrom outside piece cs =
        piecesFrom outside ((constantRun cs).1.reverse ++ piece) (constantRun cs).2 := by
  fun_induction constantRun cs with
  | case1 =>
    refine ⟨rfl, fun c hc => ?_, fun _ => rfl⟩
    cases hc
  | case2 q after hq hnone =>
    have hinside : (inside q).through after = outside := by
      have hthrough : outside.through (q :: after) = outside := of_decide_eq_true h
      rwa [through_cons, next_outside_of_quote hq] at hthrough
    obtain ⟨body, rest, htake, -⟩ := takeConstant_of_closed hinside
    cases hnone.symm.trans htake
  | case3 q after hq body rest hsome tail ih =>
    have hinside : (inside q).through after = outside := by
      have hthrough : outside.through (q :: after) = outside := of_decide_eq_true h
      rwa [through_cons, next_outside_of_quote hq] at hthrough
    obtain ⟨body', rest', htake, hclosed, hpieces⟩ := takeConstant_of_closed hinside
    cases hsome.symm.trans htake
    obtain ⟨hclosed', hblank, hrun⟩ := ih (isClosed_dropWhile hclosed) not_isBare_head_dropWhile
    refine ⟨hclosed', hblank, fun piece => ?_⟩
    calc piecesFrom outside piece (q :: after)
        = piecesFrom (inside q) (q :: piece) after := by
          rw [piecesFrom, if_neg (by simp [not_blank hq]), next_outside_of_quote hq]
      _ = piecesFrom outside (body.reverse ++ q :: piece)
            (rest.takeWhile isBare ++ rest.dropWhile isBare) := by
          rw [hpieces, List.takeWhile_append_dropWhile]
      _ = piecesFrom outside ((q :: body ++ rest.takeWhile isBare ++ tail.1).reverse ++ piece)
            tail.2 := by
          rw [piecesFrom_bare fun _ => List.mem_takeWhile_imp, hrun]
          simp [tail]
  | case4 q after hq =>
    refine ⟨h, fun c hc => ?_, fun _ => rfl⟩
    have hbare := hhead c hc
    cases hc
    simpa [isBare, hq] using hbare

/-- Up to a blank the bare text is all that is not blank. -/
theorem takeWhile_isBare : ∀ {cs : List Char}, AtBlank (cs.dropWhile isBare) →
    cs.takeWhile isBare = cs.takeWhile (!isBlank ·) ∧
      cs.dropWhile isBare = cs.dropWhile (!isBlank ·)
  | [], _ => ⟨rfl, rfl⟩
  | c :: cs, h => by
    by_cases hc : isBare c = true
    · rw [List.dropWhile_cons_of_pos hc] at h
      obtain ⟨htake, hdrop⟩ := takeWhile_isBare h
      have hblank : (!isBlank c) = true := (Bool.and_eq_true_iff.mp hc).1
      simp [hc, hblank, htake, hdrop]
    · rw [List.dropWhile_cons_of_neg hc] at h
      have hblank : isBlank c = true := h c rfl
      simp [hc, hblank]

/-- **The first unit of a closed text** goes up to the next blank outside the constants. -/
theorem firstUnit_of_closed (h : isClosed cs = true) :
    isClosed (firstUnit cs).2 = true ∧ AtBlank (firstUnit cs).2 ∧
      pieces cs = piecesFrom outside (firstUnit cs).1.reverse (firstUnit cs).2 := by
  have hrun := constantRun_of_closed (isClosed_dropWhile h) not_isBare_head_dropWhile
  have hfront : pieces cs =
      piecesFrom outside (cs.takeWhile isBare).reverse (cs.dropWhile isBare) := by
    calc pieces cs
        = piecesFrom outside [] (cs.takeWhile isBare ++ cs.dropWhile isBare) := by
          rw [List.takeWhile_append_dropWhile, pieces]
      _ = piecesFrom outside (cs.takeWhile isBare).reverse (cs.dropWhile isBare) := by
          rw [piecesFrom_bare fun _ => List.mem_takeWhile_imp, List.append_nil]
  unfold firstUnit
  dsimp only
  generalize hr : constantRun (cs.dropWhile isBare) = run at hrun
  obtain ⟨constants, rest⟩ := run
  obtain ⟨hclosed, hblank, hpieces⟩ := hrun
  by_cases hempty : constants = []
  · subst hempty
    have hrest : rest = cs.dropWhile isBare := by
      have happend := constantRun_append (cs.dropWhile isBare)
      rwa [hr] at happend
    subst hrest
    obtain ⟨htake, hdrop⟩ := takeWhile_isBare hblank
    simp only [List.isEmpty_nil, if_true]
    rw [← htake, ← hdrop]
    exact ⟨hclosed, hblank, hfront⟩
  · rw [if_neg (by simpa using hempty)]
    refine ⟨hclosed, hblank, ?_⟩
    rw [hfront, hpieces, List.reverse_append]

/-- **The units of a closed text are its pieces.** -/
theorem units_eq_pieces (h : isClosed cs = true) : units cs = pieces cs := by
  fun_induction units cs with
  | case1 => rfl
  | case2 c rest hc ih =>
    have hrest : isClosed rest = true := by
      have hthrough : outside.through (c :: rest) = outside := of_decide_eq_true h
      rw [through_cons, next_outside_of_isBlank hc] at hthrough
      exact decide_eq_true hthrough
    have hpassed : piecesFrom outside [] ([c] ++ rest) = pieces rest :=
      piecesFrom_blanks (List.forall_mem_singleton.mpr hc)
    rw [ih hrest]
    exact hpassed.symm
  | case3 c rest hc ih =>
    obtain ⟨hclosed, hblank, hpieces⟩ := firstUnit_of_closed h
    have hne : (firstUnit (c :: rest)).1 ≠ [] := firstUnit_ne_nil (by simpa using hc)
    rw [ih hclosed, hpieces]
    generalize (firstUnit (c :: rest)).1 = u, (firstUnit (c :: rest)).2 = ds at hne hblank
    cases ds with
    | nil => simp [piecesFrom, pieces, hne]
    | cons d ds =>
      have hd : isBlank d = true := hblank d rfl
      simp [piecesFrom, pieces, hne, hd]

/-! ## 4. Words are pieces -/

/-- Where a text has no quotes, its pieces are its words. -/
theorem piecesFrom_eq_wordsFrom : ∀ {cs piece : List Char}, (∀ c ∈ cs, isQuote c = false) →
    piecesFrom outside piece cs = wordsFrom piece cs
  | [], _, _ => rfl
  | c :: cs, piece, h => by
    obtain ⟨hc, hcs⟩ := List.forall_mem_cons.mp h
    rw [piecesFrom, wordsFrom, next_outside_of_not_quote hc]
    by_cases hblank : isBlank c = true
    · simp only [hblank, and_self, if_true, piecesFrom_eq_wordsFrom hcs]
    · simp only [hblank, and_false, if_false, Bool.false_eq_true, piecesFrom_eq_wordsFrom hcs]

/-- What has been read, and what is to come and is not blank, is part of a word. -/
theorem exists_mem_wordsFrom : ∀ {cs word : List Char} {c : Char},
    c ∈ word ∨ c ∈ cs ∧ isBlank c = false → ∃ w ∈ wordsFrom word cs, c ∈ w
  | [], word, c, h => by
    have hc : c ∈ word := h.resolve_right fun h => List.not_mem_nil h.1
    have hne : word.isEmpty = false := List.isEmpty_eq_false_iff.mpr (List.ne_nil_of_mem hc)
    rw [wordsFrom, hne]
    exact ⟨_, List.mem_singleton_self _, List.mem_reverse.mpr hc⟩
  | d :: cs, word, c, h => by
    rw [wordsFrom]
    split
    · rename_i hd
      -- a blank ends the word: its characters are in it, or in a later one
      have hrest : c ∈ word ∨ c ∈ cs ∧ isBlank c = false := by
        refine h.imp_right fun hc => ⟨?_, hc.2⟩
        refine (List.mem_cons.mp hc.1).resolve_left ?_
        rintro rfl
        cases hd.symm.trans hc.2
      split
      · rename_i hword
        refine exists_mem_wordsFrom (hrest.imp_left fun hc => ?_)
        rwa [List.isEmpty_iff.mp hword] at hc
      · rcases hrest with hc | hc
        · exact ⟨_, List.mem_cons_self, List.mem_reverse.mpr hc⟩
        · obtain ⟨w, hw, hc⟩ : ∃ w ∈ wordsFrom [] cs, c ∈ w := exists_mem_wordsFrom (.inr hc)
          exact ⟨w, List.mem_cons_of_mem _ hw, hc⟩
    · refine exists_mem_wordsFrom ?_
      rcases h with hc | ⟨hc, hblank⟩
      · exact .inl (List.mem_cons_of_mem d hc)
      · refine (List.mem_cons.mp hc).imp (fun hcd => ?_) fun hcs => ⟨hcs, hblank⟩
        exact List.mem_cons.mpr (.inl hcd)

/-- A text has no quotes if none of its words has. -/
theorem no_quote_of_words (h : ∀ w ∈ words cs, ∀ c ∈ w, isQuote c = false) :
    ∀ c ∈ cs, isQuote c = false := by
  intro c hc
  cases hblank : isBlank c with
  | true => exact not_isQuote_of_isBlank hblank
  | false =>
    obtain ⟨w, hw, hmem⟩ : ∃ w ∈ words cs, c ∈ w := exists_mem_wordsFrom (.inr ⟨hc, hblank⟩)
    exact h w hw c hmem

/-- Two texts are around the only space. -/
theorem eq_of_append_space {a b u v : List Char} (ha : ' ' ∉ a) (hb : ' ' ∉ b)
    (h : a ++ ' ' :: b = u ++ ' ' :: v) : u = a ∧ v = b := by
  rcases List.append_eq_append_iff.mp h with ⟨ws, rfl, hws⟩ | ⟨ws, rfl, hws⟩
  · cases ws with
    | nil => exact ⟨List.append_nil a, (List.cons.inj hws).2.symm⟩
    | cons w ws =>
      rw [(List.cons.inj hws).2] at hb
      exact absurd (List.mem_append_right ws List.mem_cons_self) hb
  · cases ws with
    | nil => exact ⟨(List.append_nil u).symm, (List.cons.inj hws).2⟩
    | cons w ws =>
      rw [(List.cons.inj hws).1] at ha
      exact absurd (List.mem_append_right u List.mem_cons_self) ha

end TextTemplate.Text

namespace TextTemplate

open TextTemplate.Text

/-! ## 5. Operators -/

/-- The words that operators are made of, and among them the one that negates. -/
def operatorWords : List (List Char) :=
  Condition.negationWord :: Comparator.oneWord.map (·.sign.toList)

namespace Comparator

variable {u v : List Char} {us : List (List Char)} {op : Comparator}

theorem twoWords_first (h : ∃ op ∈ twoWords, op.sign.toList = u ++ ' ' :: v) :
    u ∈ operatorWords ∧ v ∈ operatorWords := by
  obtain ⟨op, hop, hsign⟩ := h
  simp only [twoWords, List.mem_cons, List.not_mem_nil, or_false] at hop
  rcases hop with rfl | rfl
  · obtain ⟨rfl, rfl⟩ := eq_of_append_space (a := ['i', 's']) (b := ['n', 'o', 't']) (by decide)
      (by decide) hsign
    decide
  · obtain ⟨rfl, rfl⟩ := eq_of_append_space (a := ['n', 'o', 't']) (b := ['i', 'n']) (by decide)
      (by decide) hsign
    decide

theorem find?_twoWords (h : u ∉ operatorWords ∨ v ∉ operatorWords) :
    twoWords.find? (·.sign.toList = u ++ ' ' :: v) = none := by
  refine List.find?_eq_none.mpr fun op hop hsign => ?_
  obtain ⟨hu, hv⟩ := twoWords_first ⟨op, hop, of_decide_eq_true hsign⟩
  exact h.elim (· hu) (· hv)

/-- A word that belongs to no operator begins none. -/
theorem first?_of_not_mem (hu : u ∉ operatorWords) : ∀ us, first? (u :: us) = none := by
  have hone : oneWord.find? (·.sign.toList = u) = none := by
    refine List.find?_eq_none.mpr fun op hop hsign => hu (List.mem_cons_of_mem _ ?_)
    exact List.mem_map.mpr ⟨op, hop, of_decide_eq_true hsign⟩
  rintro (_ | ⟨v, us⟩)
  · rw [first?, hone]
    rfl
  · rw [first?, find?_twoWords (.inl hu)]
    dsimp only
    rw [hone]
    rfl

/-- **The words of an operator begin with it**, and with no other one. -/
theorem first?_of_words (op : Comparator) (hv : v ∉ operatorWords) (us : List (List Char)) :
    first? (words op.sign.toList ++ v :: us) = some (op, v :: us) := by
  have hone : ∀ op ∈ oneWord, words op.sign.toList = [op.sign.toList] ∧
      oneWord.find? (·.sign.toList = op.sign.toList) = some op := by decide
  have hcases : op ∈ oneWord ∨ op = different ∨ op = outside := by
    rcases op with _ | _ | _ | _ | _ | _ | (_ | _ | _ | _) <;> decide
  rcases hcases with hop | rfl | rfl
  · obtain ⟨hwords, hfind⟩ := hone op hop
    rw [hwords, List.singleton_append, first?, find?_twoWords (.inr hv)]
    dsimp only
    rw [hfind]
    rfl
  · rfl
  · rfl

/-- Words that belong to no operator are passed over. -/
theorem find?_behind : ∀ {us : List (List Char)} (left rest : List (List Char)),
    (∀ u ∈ us, u ∉ operatorWords) → find? left (us ++ rest) = find? (left ++ us) rest
  | [], left, rest, _ => by rw [List.nil_append, List.append_nil]
  | u :: us, left, rest, h => by
    obtain ⟨hu, hus⟩ := List.forall_mem_cons.mp h
    rw [List.cons_append, find?, first?_of_not_mem hu]
    dsimp only
    rw [find?_behind _ _ hus, List.append_assoc, List.singleton_append]

theorem find?_of_first? {left rest right : List (List Char)} (h : first? rest = some (op, right)) :
    find? left rest = some (left, op, right) := by
  cases rest with
  | nil => cases h
  | cons u rest => rw [find?, h]

end Comparator

/-! ## 6. Conditions -/

/-- The text can stand as an operand of a condition: it is not blank, its constants are closed, and
none of its pieces is a word of an operator. -/
structure IsOperandText (cs : List Char) : Prop where
  visible : ∃ c ∈ cs, isBlank c = false
  closed : isClosed cs = true
  words : ∀ u ∈ pieces cs, u ∉ operatorWords

/-- The pieces of an operand, of which there is one at least. -/
theorem IsOperandText.exists_cons {cs : List Char} (h : IsOperandText cs) :
    ∃ u us, pieces cs = u :: us := by
  obtain ⟨c, hc, hblank⟩ := h.visible
  refine List.exists_cons_of_ne_nil fun hnil => ?_
  have hvisible := visible_units cs
  rw [units_eq_pieces h.closed, hnil] at hvisible
  have hmem : c ∈ Text.visible cs := List.mem_filter.mpr ⟨hc, by rw [hblank]; rfl⟩
  exact List.not_mem_nil (hvisible.symm ▸ hmem)

namespace Condition

variable {text left right : List Char} {us : List (List Char)} {op : Comparator}

theorem read_of_units {first : List Char} {rest : List (List Char)}
    (h : units text = first :: rest) : read text =
      if first = negationWord then
        if rest.isEmpty then .error (.template .negationWithoutOperand)
        else (read (spaced rest)).map negation
      else readPlain text first rest := by
  rw [read]
  split
  · rename_i hnil
    cases hnil.symm.trans h
  · rename_i hunits
    cases hunits.symm.trans h
    rfl

/-- Without an operator there is one operand. -/
theorem read_of_operand (hleft : IsOperandText left) (hclosed : isClosed text = true)
    (h : pieces text = pieces left) :
    read text = (Expression.read (reduced left)).map truth := by
  obtain ⟨u, us, hus⟩ := hleft.exists_cons
  obtain ⟨hu, hrest⟩ := List.forall_mem_cons.mp (hus ▸ hleft.words)
  have hnot : u ≠ negationWord := fun h => hu (h ▸ List.mem_cons_self)
  have hfind : Comparator.find? [u] us = none := by
    have hbehind := Comparator.find?_behind [u] [] hrest
    rwa [List.append_nil] at hbehind
  rw [read_of_units ((units_eq_pieces hclosed).trans (h.trans hus)),
    if_neg hnot, readPlain, hfind, reduced, hus]

/-- With an operator there are two. -/
theorem read_of_operands (hleft : IsOperandText left) (hright : IsOperandText right)
    (hclosed : isClosed text = true)
    (h : pieces text = pieces left ++ (words op.sign.toList ++ pieces right)) :
    read text = (do
      let l ← Expression.read (reduced left)
      let r ← Expression.read (reduced right)
      .ok (comparison op l r)) := by
  obtain ⟨u, us, hus⟩ := hleft.exists_cons
  obtain ⟨v, vs, hvs⟩ := hright.exists_cons
  obtain ⟨hu, hrest⟩ := List.forall_mem_cons.mp (hus ▸ hleft.words)
  have hnot : u ≠ negationWord := fun h => hu (h ▸ List.mem_cons_self)
  have hv := hright.words v (hvs ▸ List.mem_cons_self)
  have hfind : Comparator.find? [u] (us ++ (words op.sign.toList ++ v :: vs)) =
      some (u :: us, op, v :: vs) := by
    rw [Comparator.find?_behind _ _ hrest]
    exact Comparator.find?_of_first? (Comparator.first?_of_words op hv vs)
  have hunits : units text = u :: (us ++ (words op.sign.toList ++ v :: vs)) := by
    rw [units_eq_pieces hclosed, h, hus, hvs, List.cons_append]
  rw [read_of_units hunits, if_neg hnot, readPlain, hfind,
    reduced, reduced, hus, hvs]
  rfl

/-- **Negations in front**: a text whose pieces are some negations and further pieces is read as
these further pieces are, and negated as often.  The induction is on the number of negations; each
one has the rest put together and cut again. -/
theorem read_of_negations {x : Except Cause Condition} (hus : us ≠ [])
    (h : ∀ text, isClosed text = true → pieces text = us → read text = x) :
    ∀ (n : Nat) {text : List Char}, isClosed text = true →
      pieces text = List.replicate n negationWord ++ us → read text = x.map (negation^[n])
  | 0, text, hclosed, hpieces => by
    rw [h text hclosed hpieces]
    cases x <;> rfl
  | n + 1, text, hclosed, hpieces => by
    have hall := isPiece_of_mem_pieces hclosed
    rw [hpieces, List.replicate_succ, List.cons_append] at hall
    obtain ⟨hclosed', hpieces'⟩ := pieces_spaced (List.forall_mem_cons.mp hall).2
    have hne : (List.replicate n negationWord ++ us).isEmpty = false :=
      List.isEmpty_eq_false_iff.mpr (List.append_ne_nil_of_right_ne_nil _ hus)
    rw [List.replicate_succ, List.cons_append] at hpieces
    rw [read_of_units ((units_eq_pieces hclosed).trans hpieces), if_pos rfl, hne,
      if_neg Bool.false_ne_true, read_of_negations hus h n hclosed' hpieces']
    cases x with
    | error cause => rfl
    | ok c => exact congrArg Except.ok (Function.iterate_succ_apply' negation n c).symm

/-- Negations in front of a text, each with a gap behind it. -/
def negated (gaps : List (List Char)) (text : List Char) : List Char :=
  gaps.foldr (fun gap rest => negationWord ++ (gap ++ rest)) text

theorem isClosed_negationWord : isClosed negationWord = true := rfl

theorem isClosed_negated {gaps : List (List Char)} (hgaps : ∀ gap ∈ gaps, IsGap gap)
    (h : isClosed text = true) : isClosed (negated gaps text) = true := by
  induction gaps with
  | nil => exact h
  | cons gap gaps ih =>
    obtain ⟨hgap, hrest⟩ := List.forall_mem_cons.mp hgaps
    exact isClosed_append isClosed_negationWord (isClosed_append hgap.isClosed (ih hrest))

theorem pieces_negated {gaps : List (List Char)} (hgaps : ∀ gap ∈ gaps, IsGap gap) :
    pieces (negated gaps text) = List.replicate gaps.length negationWord ++ pieces text := by
  induction gaps with
  | nil => rfl
  | cons gap gaps ih =>
    obtain ⟨hgap, hrest⟩ := List.forall_mem_cons.mp hgaps
    have hword : pieces negationWord = [negationWord] := rfl
    calc pieces (negationWord ++ (gap ++ negated gaps text))
        = [negationWord] ++ pieces (negated gaps text) := by
          rw [pieces_append_gap isClosed_negationWord hgap, hword]
      _ = List.replicate (gaps.length + 1) negationWord ++ pieces text := by
          rw [ih hrest, List.replicate_succ, List.singleton_append, List.cons_append]

theorem no_quote_of_sign {sign : List Char} (h : words sign = words op.sign.toList) :
    ∀ c ∈ sign, isQuote c = false := by
  have hall : ((words op.sign.toList).all fun w => w.all fun c => !isQuote c) = true := by
    rcases op with _ | _ | _ | _ | _ | _ | (_ | _ | _ | _) <;> rfl
  refine no_quote_of_words fun w hw c hc => ?_
  have hc' := List.all_eq_true.mp (List.all_eq_true.mp hall w (h ▸ hw)) c hc
  rwa [Bool.not_eq_true'] at hc'

/-- **A condition is read as it is written.**  In front there are any number of negations; behind
them there is one operand, or an operator between two operands; and any blanks stand between them.
The operands are read with their blanks reduced to single spaces and their constants unchanged, and
nothing but reading them can fail.  So a word of an operator inside a constant is no operator. -/
theorem read_written {left : List Char} {gaps : List (List Char)}
    (hgaps : ∀ gap ∈ gaps, IsGap gap) (hleft : IsOperandText left) :
    read (negated gaps left) =
      ((Expression.read (reduced left)).map truth).map (negation^[gaps.length]) ∧
    ∀ (op : Comparator) (sign right gap gap' : List Char), words sign = words op.sign.toList →
      IsOperandText right → IsGap gap → IsGap gap' →
        read (negated gaps (left ++ (gap ++ (sign ++ (gap' ++ right))))) =
          (do
            let l ← Expression.read (reduced left)
            let r ← Expression.read (reduced right)
            .ok (comparison op l r)).map (negation^[gaps.length]) := by
  obtain ⟨u, us, hus⟩ := hleft.exists_cons
  have hne : pieces left ≠ [] := hus ▸ List.cons_ne_nil u us
  constructor
  · exact read_of_negations hne (fun _ => read_of_operand hleft) gaps.length
      (isClosed_negated hgaps hleft.closed) (pieces_negated hgaps)
  · intro op sign right gap gap' hwords hright hgap hgap'
    have hquotes := no_quote_of_sign hwords
    have hsign : pieces sign = words op.sign.toList := by
      rw [pieces, piecesFrom_eq_wordsFrom hquotes]
      exact hwords
    have hclosed : isClosed (left ++ (gap ++ (sign ++ (gap' ++ right)))) = true :=
      isClosed_append hleft.closed (isClosed_append hgap.isClosed
        (isClosed_append (isClosed_of_no_quote hquotes)
          (isClosed_append hgap'.isClosed hright.closed)))
    refine read_of_negations (List.append_ne_nil_of_left_ne_nil hne _)
      (fun _ => read_of_operands hleft hright) gaps.length (isClosed_negated hgaps hclosed) ?_
    rw [pieces_negated hgaps, pieces_append_gap hleft.closed hgap,
      pieces_append_gap (isClosed_of_no_quote hquotes) hgap', hsign]

/-- A name with a filter; the argument is a constant that holds an operator. -/
def filteredText : List Char := "x  |default: \"a  is not\"".toList

/-- A constant that holds an operator, between blanks. -/
def quotedText : List Char := " 'in  b' ".toList

/-- Two negations and an operator of two words, with more blanks than one in between. -/
theorem read_written_twice :
    (∀ gap ∈ [[' '], ['\t', ' ']], IsGap gap) ∧ IsOperandText filteredText ∧
    IsOperandText quotedText ∧ words "not   in".toList = words Comparator.outside.sign.toList ∧
    read "not not\t x  |default: \"a  is not\" not   in  'in  b' ".toList =
      .ok (negation (negation (comparison .outside
        ⟨"x |default: \"a  is not\"", ⟨"x", .path ["x"]⟩,
          [⟨"default", some ⟨"\"a  is not\"", .text "a  is not"⟩⟩]⟩
        ⟨"'in  b'", ⟨"'in  b'", .text "in  b"⟩, []⟩))) := by
  have hgaps : ∀ gap ∈ [[' '], ['\t', ' ']], IsGap gap :=
    List.forall_mem_cons.mpr ⟨isGap_space, List.forall_mem_singleton.mpr
      ⟨List.cons_ne_nil _ _, List.all_eq_true.mp rfl⟩⟩
  have hleft : IsOperandText filteredText :=
    { visible := ⟨'x', List.mem_cons_self, rfl⟩
      closed := rfl
      words := by decide +kernel }
  have hright : IsOperandText quotedText :=
    { visible := ⟨'i', by decide, rfl⟩
      closed := rfl
      words := by decide +kernel }
  have hsign : words "not   in".toList = words Comparator.outside.sign.toList := by
    decide +kernel
  refine ⟨hgaps, hleft, hright, hsign, ?_⟩
  have hread := (read_written hgaps hleft).2 _ _ _ _ _ hsign hright isGap_space isGap_space
  calc read "not not\t x  |default: \"a  is not\" not   in  'in  b' ".toList
      = read (negated [[' '], ['\t', ' ']]
          (filteredText ++ ([' '] ++ ("not   in".toList ++ ([' '] ++ quotedText))))) := rfl
    _ = _ := by
      rw [hread]
      decide +kernel

end Condition
end TextTemplate
