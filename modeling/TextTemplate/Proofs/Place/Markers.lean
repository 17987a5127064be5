/-
# The place of a marker

A debugging engine shows the line of an error, cut at the token, and a window of the lines around
it.  A marker lies in one line if its delimiters do, and then what is shown is exact: the line has
the number of the token, what is shown at the token is the token, and the three pieces make up the
line.

* `DebugInfo.Shows` says what is shown of a stretch of a source;
* `DebugInfo.shows_of` says that a stretch in one line is shown, `DebugInfo.during_of` that no other
  is;
* `Error.placed_of_printable` says that an error gets its place if its message can be written;
* `Delimiters.marker_shown` is the result for markers.
-/
import TextTemplate.Proofs.Grammar.Segmentation
import TextTemplate.Proofs.Place.Lines

namespace TextTemplate

open TextTemplate.Decimal TextTemplate.Text

/-! ## 1. Excerpts -/

/-- A text as markup, given by its characters. -/
theorem escapeMarkup_append (cs ds : List Char) :
    escapeMarkup (String.ofList cs) ++ escapeMarkup (String.ofList ds) =
      escapeMarkup (String.ofList (cs ++ ds)) := by
  simp only [escapeMarkup, String.toList_ofList, List.flatMap_append, ← String.ofList_append]

theorem excerpt_eq (source : List Char) (start stop : Nat) :
    excerpt source start stop = escapeMarkup (String.ofList (source.extract start stop)) := by
  rw [excerpt, slice_eq_extract]

/-- Two stretches of a text, one behind the other. -/
theorem extract_append_extract {cs : List Char} {i j k : Nat} (hij : i ≤ j) (hjk : j ≤ k) :
    cs.extract i j ++ cs.extract j k = cs.extract i k := by
  obtain ⟨m, rfl⟩ := Nat.exists_eq_add_of_le hij
  obtain ⟨n, rfl⟩ := Nat.exists_eq_add_of_le hjk
  have hm : i + m - i = m := Nat.add_sub_cancel_left i m
  have hn : i + m + n - (i + m) = n := Nat.add_sub_cancel_left (i + m) n
  have hmn : i + m + n - i = m + n := by omega
  rw [List.extract, List.extract, List.extract, hm, hn, hmn, List.take_add, List.drop_drop]

/-- **Excerpts follow each other as the stretches do.** -/
theorem excerpt_append {source : List Char} {i j k : Nat} (hij : i ≤ j) (hjk : j ≤ k) :
    excerpt source i j ++ excerpt source j k = excerpt source i k := by
  rw [excerpt_eq, excerpt_eq, excerpt_eq, escapeMarkup_append, extract_append_extract hij hjk]

/-- No character disappears as markup. -/
theorem markupReference_ne_nil (c : Char) : markupReference c ≠ [] := by
  unfold markupReference
  split <;> exact List.cons_ne_nil _ _

theorem excerpt_ne_empty {source : List Char} {start stop : Nat} (hlt : start < stop)
    (hstop : stop ≤ source.length) : excerpt source start stop ≠ "" := by
  intro hempty
  have hnil : (source.extract start stop).flatMap markupReference = [] := by
    have htext := congrArg String.toList hempty
    rw [excerpt_eq, escapeMarkup, String.toList_ofList, String.toList_ofList] at htext
    exact htext
  have hextract : source.extract start stop = [] := by
    cases h : source.extract start stop with
    | nil => rfl
    | cons c cs =>
      rw [h, List.flatMap_cons] at hnil
      exact absurd (List.append_eq_nil_iff.mp hnil).1 (markupReference_ne_nil c)
  have hlength := congrArg List.length hextract
  rw [List.extract, List.length_take, List.length_drop, List.length_nil] at hlength
  omega

/-! ## 2. What is shown of a stretch -/

/-- What is shown of a stretch of a source: the number of its line, the stretch, the line in three
pieces, and a window of numbered lines that the line is in. -/
structure DebugInfo.Shows (info : DebugInfo) (source : List Char) (number start stop : Nat) :
    Prop where
  line : info.line = number
  during : info.during = escapeMarkup (String.ofList (source.extract start stop))
  whole : info.before ++ info.during ++ info.after =
    escapeMarkup (String.ofList (lineAt source number))
  top_le : info.top ≤ info.line
  lt_bottom : info.line < info.bottom
  window : info.bottom - info.top ≤ 21
  numbered : info.sourceLines = (List.range' info.top (info.bottom - info.top)).map
    fun number => (number, escapeMarkup (String.ofList (lineAt source number)))
  total : info.total = newlines source + 2

section Stretch

variable {source : List Char} {start stop : Nat}

/-- The empty line in front of the source holds no stretch. -/
theorem filter_numberedLines (hlt : start < stop) :
    (numberedLines source).filter (Line.holds start stop) =
      (linesAt 1 0 source).filter (Line.holds start stop) := by
  have hnot : ¬Line.holds start stop ⟨0, 0, 0⟩ = true := by
    rw [holds_iff]
    dsimp only
    omega
  rw [numberedLines_eq, List.filter_cons_of_neg hnot]

/-- **A stretch in one line is held by that line alone.** -/
theorem exists_line (hlt : start < stop) (hstop : stop ≤ source.length)
    (hone : InOneLine source start stop) :
    ∃ l, (numberedLines source).filter (Line.holds start stop) = [l] ∧
      l.number = 1 + newlines (source.take start) ∧ l.start ≤ start ∧ stop ≤ l.stop ∧
      source.extract l.start l.stop = lineAt source l.number := by
  obtain ⟨l, hfilter, hnumber⟩ := (filter_linesAt 1 0 hlt hstop).1 hone
  rw [Nat.zero_add, Nat.zero_add, ← filter_numberedLines hlt] at hfilter
  have hmem : l ∈ (numberedLines source).filter (Line.holds start stop) :=
    hfilter ▸ List.mem_singleton_self l
  obtain ⟨hl, hholds⟩ := List.mem_filter.mp hmem
  obtain ⟨hle, hge⟩ := holds_iff.mp hholds
  exact ⟨l, hfilter, hnumber, hle, hge, extract_of_mem_numberedLines hl⟩

/-- The line of a stretch is one of those that are counted. -/
theorem newlines_take_le (source : List Char) (n : Nat) :
    newlines (source.take n) ≤ newlines source :=
  (List.take_sublist n source).count_le '\n'

/-- The lines between two numbers, as they are shown. -/
theorem shown_lines {top bottom : Nat} (hbottom : bottom ≤ newlines source + 2) :
    (((numberedLines source).take bottom).drop top).map
        (fun l => (l.number, excerpt source l.start l.stop)) =
      (List.range' top (bottom - top)).map
        fun number => (number, escapeMarkup (String.ofList (lineAt source number))) := by
  have hshow : (fun l : Line => (l.number, excerpt source l.start l.stop)) =
      Prod.map id (escapeMarkup ∘ String.ofList) ∘ Line.text source := by
    funext l
    exact congrArg (Prod.mk l.number) (excerpt_eq source l.start l.stop)
  have hrange : ((List.range (newlines source + 2)).take bottom).drop top =
      List.range' top (bottom - top) := by
    rw [List.take_range, Nat.min_eq_left hbottom, List.range_eq_range', List.drop_range']
    simp
  rw [hshow, ← List.map_map, List.map_drop, List.map_take, texts_numberedLines, ← List.map_take,
    ← List.map_drop, hrange, List.map_map]
  rfl

/-- **A stretch in one line is shown.** -/
theorem DebugInfo.shows_of (name : Option String) (message : String) (hlt : start < stop)
    (hstop : stop ≤ source.length) (hone : InOneLine source start stop) :
    (DebugInfo.of source name message start stop).Shows source
      (1 + newlines (source.take start)) start stop := by
  obtain ⟨l, hfilter, hnumber, hle, hge, htext⟩ := exists_line hlt hstop hone
  have hlast : ((numberedLines source).filter fun l => l.start ≤ start ∧ stop ≤ l.stop).getLast? =
      some l := congrArg List.getLast? hfilter
  have hline : (DebugInfo.of source name message start stop).line =
      1 + newlines (source.take start) := by
    simp only [DebugInfo.of, hlast, Option.map_some, Option.getD_some, hnumber]
  have htop : (DebugInfo.of source name message start stop).top =
      max 1 (1 + newlines (source.take start) - contextLines) := by rw [← hline]; rfl
  have hbottom : (DebugInfo.of source name message start stop).bottom =
      min (newlines source + 2) (1 + newlines (source.take start) + 1 + contextLines) := by
    rw [← hline, ← length_numberedLines]
    rfl
  have hbound := newlines_take_le source start
  have hcontext : contextLines = 10 := rfl
  refine ⟨hline, ?_, ?_, ?_, ?_, ?_, ?_, length_numberedLines source⟩
  · simp only [DebugInfo.of, hlast, Option.map_some, Option.getD_some, excerpt_eq]
  · have hpieces : excerpt source l.start start ++ excerpt source start stop ++
        excerpt source stop l.stop = excerpt source l.start l.stop := by
      rw [excerpt_append hle (Nat.le_of_lt hlt),
        excerpt_append (Nat.le_trans hle (Nat.le_of_lt hlt)) hge]
    simp only [DebugInfo.of, hlast, Option.map_some, Option.getD_some]
    rw [hpieces, excerpt_eq, htext, hnumber]
  · rw [htop, hline]
    omega
  · rw [hbottom, hline]
    omega
  · rw [hbottom, htop]
    omega
  · exact shown_lines
      (Nat.le_trans (Nat.min_le_left _ _) (Nat.le_of_eq (length_numberedLines source)))

/-- A stretch that goes on behind a line feed is not shown. -/
theorem DebugInfo.during_of (name : Option String) (message : String) (hlt : start < stop)
    (hstop : stop ≤ source.length) (hmany : ¬InOneLine source start stop) :
    (DebugInfo.of source name message start stop).during = "" := by
  have hfilter := (filter_linesAt 1 0 hlt hstop).2 hmany
  rw [Nat.zero_add, Nat.zero_add, ← filter_numberedLines hlt] at hfilter
  have hlast : ((numberedLines source).filter fun l => l.start ≤ start ∧ stop ≤ l.stop).getLast? =
      none := congrArg List.getLast? hfilter
  simp only [DebugInfo.of, hlast, Option.map_none, Option.getD_none]

end Stretch

/-! ## 3. Errors that are placed -/

namespace Error

variable {s : Store} {e : Error}

/-- An error whose argument has a text, or that has no argument, is placed. -/
theorem placed_of_printable (h : e.cause.argumentText s ≠ .unprintable) (source : String)
    (name : Option String) (u : Token) : ∃ message, e.placed s source name u =
      { e with debug := some (DebugInfo.of source.toList name message u.start u.stop) } := by
  unfold placed
  cases htext : e.cause.argumentText s with
  | absent => exact ⟨_, rfl⟩
  | text message => exact ⟨message, rfl⟩
  | unprintable => exact absurd htext h

/-- An error whose argument has no text gives way to another error, which has no place. -/
theorem placed_of_unprintable (h : e.cause.argumentText s = .unprintable) (source : String)
    (name : Option String) (u : Token) :
    e.placed s source name u = of (.value .integerTextTooLong) := by
  unfold placed
  rw [h]

end Error

/-! ## 4. Markers -/

namespace Delimiters

variable {d : Delimiters} {cs : List Char}

/-- A token among others is not empty and lies where they do. -/
theorem Tile.bounds {ts : List Token} {a b : Nat} (h : Tile ts a b) :
    ∀ t ∈ ts, t.start < t.stop ∧ t.stop ≤ b := by
  induction ts generalizing a with
  | nil => exact fun t ht => absurd ht List.not_mem_nil
  | cons t ts ih =>
    obtain ⟨-, hlt, hrest⟩ := h
    exact List.forall_mem_cons.mpr ⟨⟨hlt, hrest.le⟩, ih hrest⟩

/-- A token of a source is not empty and lies in the source. -/
theorem bounds_of_mem_tokens {source : String} {t : Token} (h : t ∈ d.tokens source) :
    t.start < t.stop ∧ t.stop ≤ source.toList.length :=
  (segmentation_tokens d source).tile.bounds t h

/-- No delimiter contains a line feed. -/
def OneLine (d : Delimiters) : Prop := ∀ k, '\n' ∉ d.opener k ∧ '\n' ∉ d.closer k

/-- What stands at a position for some characters. -/
theorem extract_of_standsAt {part : List Char} {p : Nat} (h : StandsAt part cs p) :
    cs.extract p (p + part.length) = part := by
  obtain ⟨rest, hrest⟩ := h
  rw [List.extract, ← hrest, Nat.add_sub_cancel_left, List.take_left']
  rfl

/-- The text of a marker: its delimiters, and what stands between them. -/
theorem not_mem_of_readsMarker (hd : d.OneLine) {t : Token} {k : MarkerKind} {q : Nat}
    (h : d.ReadsMarker cs t k q) : '\n' ∉ cs.extract t.start t.stop := by
  obtain ⟨hopened, hclosed, hbehind, hline⟩ := h.shortest.1
  have hpieces : cs.extract t.start t.stop =
      d.opener k ++ cs.extract (t.start + (d.opener k).length) q ++ d.closer k := by
    have hopener := extract_of_standsAt hopened
    have hcloser := extract_of_standsAt hclosed
    have hcut : cs.extract t.start (t.start + (d.opener k).length) ++
        cs.extract (t.start + (d.opener k).length) q ++ cs.extract q t.stop =
          cs.extract t.start t.stop := by
      rw [extract_append_extract (Nat.le_add_right _ _) hbehind,
        extract_append_extract (Nat.le_trans (Nat.le_add_right _ _) hbehind)
          (h.stop ▸ Nat.le_add_right _ _)]
    rw [← hcut, hopener, h.stop, hcloser]
  rw [hpieces]
  simp only [List.mem_append, not_or]
  exact ⟨⟨(hd k).1, hline⟩, (hd k).2⟩

/-- A text without a line feed lies in one line. -/
theorem inOneLine_of_not_mem {start stop : Nat} (h : '\n' ∉ cs.extract start stop) :
    InOneLine cs start stop := by
  intro hmem
  refine h ?_
  rw [List.extract] at hmem ⊢
  exact (List.take_subset_take_left _ (by omega)) hmem

/-- **A marker lies in one line** if its delimiters do. -/
theorem inOneLine_of_mem_tokens (hd : d.OneLine) {source : String} {t : Token}
    (ht : t ∈ d.tokens source) (hk : t.kind ≠ .text) : InOneLine source.toList t.start t.stop := by
  rcases (segmentation_tokens d source).reads t ht with hplain | ⟨k, q, hmarker⟩
  · exact absurd hplain.kind hk
  · exact inOneLine_of_not_mem (not_mem_of_readsMarker hd hmarker)

/-- **What is shown of a marker.**  If no delimiter contains a line feed, the place of an error at a
marker is exact, whatever the message is: the line shown is the token's, what is shown at the token
is the token, and the three pieces make up that line, which is in the window.  An error gets this
place if its message can be written; if not, it is lost, and nothing is shown. -/
theorem marker_shown (hd : d.OneLine) {source : String} {t : Token} (ht : t ∈ d.tokens source)
    (hk : t.kind ≠ .text) (name : Option String) :
    (∀ message, (DebugInfo.of source.toList name message t.start t.stop).Shows source.toList
      t.line t.start t.stop) ∧
    ∀ (s : Store) (e : Error),
      (e.cause.argumentText s ≠ .unprintable →
        ∃ info, e.placed s source name t = { e with debug := some info } ∧
          info.Shows source.toList t.line t.start t.stop) ∧
      (e.cause.argumentText s = .unprintable →
        e.placed s source name t = Error.of (.value .integerTextTooLong)) := by
  obtain ⟨hlt, hstop⟩ := bounds_of_mem_tokens ht
  have hone := inOneLine_of_mem_tokens hd ht hk
  have hshows : ∀ message, (DebugInfo.of source.toList name message t.start t.stop).Shows
      source.toList t.line t.start t.stop := by
    intro message
    rw [(segmentation_tokens d source).lines t ht]
    exact DebugInfo.shows_of name message hlt hstop hone
  refine ⟨hshows, fun s e => ⟨fun hprintable => ?_, fun hlong => ?_⟩⟩
  · obtain ⟨message, hplaced⟩ := Error.placed_of_printable hprintable source name t
    exact ⟨_, hplaced, hshows message⟩
  · exact Error.placed_of_unprintable hlong source name t

theorem oneLine_standard : standard.OneLine := by
  intro k
  cases k <;> decide

/-- The second line of three holds an expression. -/
theorem marker_shown_second :
    let source := "ab\nc\x7b\x7b x \x7d\x7d\n"
    let t : Token := ⟨.expression, "x", 4, 11, 2⟩
    let info := DebugInfo.of source.toList none "" 4 11
    (standard.OneLine ∧ t ∈ standard.tokens source ∧ t.kind ≠ .text) ∧
      info.Shows source.toList 2 4 11 ∧ info.before = "c" ∧ info.after = "\n" := by
  have ht : (⟨.expression, "x", 4, 11, 2⟩ : Token) ∈
      standard.tokens "ab\nc\x7b\x7b x \x7d\x7d\n" := by decide +kernel
  have hk : (⟨.expression, "x", 4, 11, 2⟩ : Token).kind ≠ .text := by decide
  exact ⟨⟨oneLine_standard, ht, hk⟩, (marker_shown oneLine_standard ht hk none).1 "",
    by decide +kernel, by decide +kernel⟩

/-- **A marker that is not shown.**  The message of the error is an integer with one digit more than
can be written. -/
theorem marker_unshown :
    let source := "\x7b\x7b x \x7d\x7d"
    let t : Token := ⟨.expression, "x", 0, 7, 1⟩
    let e := Error.of (.raised .badValue (some (.int (tenTo digitLimit : Nat))))
    standard.OneLine ∧ t ∈ standard.tokens source ∧ t.kind ≠ .text ∧ e.debug = none ∧
      (e.placed .empty source none t).debug = none := by
  have ht : (⟨.expression, "x", 0, 7, 1⟩ : Token) ∈ standard.tokens "\x7b\x7b x \x7d\x7d" := by
    decide +kernel
  have hlong : (Cause.raised .badValue (some (.int (tenTo digitLimit : Nat)))).argumentText .empty =
      .unprintable := by
    have hwritten : decimal? (tenTo digitLimit : Nat) = none := by
      unfold decimal?
      generalize tenTo digitLimit = limit
      exact if_neg (Nat.lt_irrefl limit)
    have hshown : Store.empty.shown? (.int (tenTo digitLimit : Nat)) = none := hwritten
    simp only [Cause.argumentText, hshown]
  refine ⟨oneLine_standard, ht, by decide, rfl, ?_⟩
  exact congrArg Error.debug (Error.placed_of_unprintable (e := Error.of _) hlong _ none _)

end Delimiters

end TextTemplate
