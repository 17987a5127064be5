/-
# The cut of a source is the only one of its kind

`Delimiters.tokens` reads a source from left to right and marker by marker.  Here its result is
described by positions alone: where opening and closing delimiters stand, and how the tokens lie
in the source.

* `Delimiters.Marks` says that a marker of a kind opens at one position and can close at another;
* `Delimiters.ReadsMarker` and `Delimiters.ReadsPlain` say what a token of a marker and a token of
  plain text are;
* `Delimiters.Segmentation` says that tokens cut a source at its leftmost and shortest markers.

The argument has two halves.  What the reader gives is a segmentation, by the recursion of the
reader (`segmentation_tokens`); and two segmentations of one source agree token by token
(`CutFrom.unique`), because a marker at a position is determined by that position.
-/
import Mathlib.Data.List.Chain
import Mathlib.Order.Bounds.Basic
import TextTemplate.Grammar.Segment

namespace TextTemplate

open TextTemplate.Text

/-! ## 1. Markers by their positions -/

/-- A text stands in another at a position. -/
def StandsAt (part cs : List Char) (p : Nat) : Prop := part <+: cs.drop p

/-- A closing delimiter stands behind some characters of the same line. -/
def ClosesBehind (closer cs : List Char) (n : Nat) : Prop := StandsAt closer cs n ∧ '\n' ∉ cs.take n

namespace Delimiters

variable {d : Delimiters} {cs : List Char}

/-- The opening delimiter of a kind stands at `p` and its closing one behind it at `q`, with no
line feed between the two. -/
structure Marks (d : Delimiters) (cs : List Char) (k : MarkerKind) (p q : Nat) : Prop where
  opened : StandsAt (d.opener k) cs p
  closed : StandsAt (d.closer k) cs q
  behind : p + (d.opener k).length ≤ q
  oneLine : '\n' ∉ cs.extract (p + (d.opener k).length) q

/-- A marker starts at a position. -/
def Starts (d : Delimiters) (cs : List Char) (p : Nat) : Prop := ∃ k q, d.Marks cs k p q

/-- **At a position at most one kind of marker opens.** -/
theorem opener_unique {k k' : MarkerKind} {p : Nat} (h : StandsAt (d.opener k) cs p)
    (h' : StandsAt (d.opener k') cs p) : k' = k := by
  by_contra hne
  have no {i j : MarkerKind} (hij : i ≠ j) (hp : d.opener i <+: d.opener j) : False := by
    have := d.separate i j hij
    simp [List.isPrefixOf_iff_prefix.mpr hp] at this
  rcases List.prefix_or_prefix_of_prefix h h' with hp | hp
  · exact no (Ne.symm hne) hp
  · exact no hne hp

/-- A closing delimiter behind an opening one, seen from the end of the opening one. -/
theorem marks_iff_closesBehind {k : MarkerKind} {p n : Nat} :
    d.Marks cs k p (p + (d.opener k).length + n) ↔
      StandsAt (d.opener k) cs p ∧
        ClosesBehind (d.closer k) (cs.drop (p + (d.opener k).length)) n := by
  have hcut : cs.extract (p + (d.opener k).length) (p + (d.opener k).length + n) =
      (cs.drop (p + (d.opener k).length)).take n := by simp [List.extract]
  have hdrop : (cs.drop (p + (d.opener k).length)).drop n =
      cs.drop (p + (d.opener k).length + n) := by simp
  constructor
  · intro h
    refine ⟨h.opened, ?_, ?_⟩
    · rw [StandsAt, hdrop]
      exact h.closed
    · rw [← hcut]
      exact h.oneLine
  · rintro ⟨ho, hc, hn⟩
    refine ⟨ho, ?_, by omega, ?_⟩
    · rw [StandsAt, ← hdrop]
      exact hc
    · rw [hcut]
      exact hn

/-! ## 2. The reader finds the first closing delimiter -/

/-- **A body ends at the first closing delimiter of its line.** -/
theorem body?_isLeast {closer : List Char} :
    ∀ {cs : List Char} {p : List Char × List Char}, body? closer cs = some p →
      IsLeast {n | ClosesBehind closer cs n} p.1.length
  | [], _, h => by simp [body?] at h
  | c :: cs, p, h => by
    simp only [body?] at h
    split at h
    · rename_i hp
      obtain rfl := Option.some.inj h
      refine ⟨⟨List.isPrefixOf_iff_prefix.mp hp, by simp⟩, ?_⟩
      intro n _
      exact Nat.zero_le n
    · rename_i hp
      split at h
      · simp at h
      · rename_i hc
        obtain ⟨q, hq, rfl⟩ := Option.map_eq_some_iff.mp h
        obtain ⟨⟨hat, hline⟩, hmin⟩ := body?_isLeast hq
        refine ⟨⟨hat, ?_⟩, ?_⟩
        · simpa [Ne.symm hc] using hline
        · rintro (_ | n) ⟨hn, hnl⟩
          · exact absurd (List.isPrefixOf_iff_prefix.mpr hn) hp
          · have : q.1.length ≤ n := hmin ⟨hn, fun hm => hnl (List.mem_cons_of_mem c hm)⟩
            simpa using this

/-- Where a closing delimiter stands in the line, there is a body. -/
theorem body?_of_closesBehind {closer : List Char} (hne : closer ≠ []) :
    ∀ {cs : List Char} {n : Nat}, ClosesBehind closer cs n → ∃ p, body? closer cs = some p
  | [], n, h => by simp [ClosesBehind, StandsAt, hne] at h
  | c :: cs, n, ⟨hat, hline⟩ => by
    by_cases hp : closer.isPrefixOf (c :: cs)
    · exact ⟨([], (c :: cs).drop closer.length), by simp [body?, hp]⟩
    · cases n with
      | zero => exact absurd (List.isPrefixOf_iff_prefix.mpr hat) hp
      | succ n =>
        simp only [List.take_succ_cons, List.mem_cons, not_or] at hline
        have hrest : ClosesBehind closer cs n := ⟨hat, hline.2⟩
        obtain ⟨p, hq⟩ := body?_of_closesBehind hne hrest
        exact ⟨(c :: p.1, p.2), by simp [body?, hp, Ne.symm hline.1, hq]⟩

/-- **Where the reader finds no marker, none starts.** -/
theorem not_starts_of_markerAt?_eq_none {p : Nat} (h : d.markerAt? (cs.drop p) = none) :
    ¬ d.Starts cs p := by
  rintro ⟨k, q, hm⟩
  obtain ⟨n, rfl⟩ := Nat.exists_eq_add_of_le hm.behind
  obtain ⟨hopen, hclose⟩ := marks_iff_closesBehind.mp hm
  obtain ⟨b, hb⟩ := body?_of_closesBehind (d.closer_ne_nil k) hclose
  have hnone := List.findSome?_eq_none_iff.mp h k (MarkerKind.mem_all k)
  simp [markerOf?, List.isPrefixOf_iff_prefix.mpr hopen, List.drop_drop, hb] at hnone

/-- **A marker that the reader finds opens where it looks, and ends with the first closing
delimiter.** -/
theorem marks_of_markerAt? {p : Nat} {m rest : List Char}
    (h : d.markerAt? (cs.drop p) = some (m, rest)) :
    ∃ k b, m = d.opener k ++ b ++ d.closer k ∧ StandsAt (d.opener k) cs p ∧
      IsLeast {q | d.Marks cs k p q} (p + (d.opener k).length + b.length) := by
  obtain ⟨_, k, _, _, hk, _⟩ := List.findSome?_eq_some_iff.mp h
  simp only [markerOf?, List.drop_drop] at hk
  split at hk
  · rename_i hp
    obtain ⟨b, hb, hpair⟩ := Option.map_eq_some_iff.mp hk
    obtain ⟨rfl, -⟩ := Prod.mk.inj hpair
    have hopen : StandsAt (d.opener k) cs p := List.isPrefixOf_iff_prefix.mp hp
    obtain ⟨hcl, hmin⟩ := body?_isLeast hb
    refine ⟨k, b.1, rfl, hopen, marks_iff_closesBehind.mpr ⟨hopen, hcl⟩, ?_⟩
    intro q hq
    obtain ⟨n, rfl⟩ := Nat.exists_eq_add_of_le hq.behind
    exact Nat.add_le_add_left (hmin (marks_iff_closesBehind.mp hq).2) _
  · simp at hk

/-! ## 3. Tokens by their positions -/

/-- A token of plain text: it is what stands there, and no marker starts in it. -/
structure ReadsPlain (d : Delimiters) (cs : List Char) (t : Token) : Prop where
  kind : t.kind = .text
  contents : t.contents = String.ofList (cs.extract t.start t.stop)
  noMarker : ∀ p, t.start ≤ p → p < t.stop → ¬ d.Starts cs p

/-- A token of a marker: its kind is the only one that opens there, it ends behind the first
closing delimiter, and it holds what stands between, without the blanks around it unless it is a
comment. -/
structure ReadsMarker (d : Delimiters) (cs : List Char) (t : Token) (k : MarkerKind) (q : Nat) :
    Prop where
  kind : t.kind = tokenKind k
  only : ∀ k', StandsAt (d.opener k') cs t.start ↔ k' = k
  shortest : IsLeast {q | d.Marks cs k t.start q} q
  stop : t.stop = q + (d.closer k).length
  contents : t.contents = String.ofList
    (if k = .comment then cs.extract (t.start + (d.opener k).length) q
      else strip (cs.extract (t.start + (d.opener k).length) q))

/-- Tokens that lie between two positions without a gap, none of them empty. -/
def Tile : List Token → Nat → Nat → Prop
  | [], a, b => a = b
  | t :: ts, a, b => t.start = a ∧ t.start < t.stop ∧ Tile ts t.stop b

/-- Of two tokens, one is not plain text. -/
def Separated (t u : Token) : Prop := ¬ (t.kind = .text ∧ u.kind = .text)

/-- Tokens cut a text from a position on. -/
structure CutFrom (d : Delimiters) (cs : List Char) (a : Nat) (ts : List Token) : Prop where
  tile : Tile ts a cs.length
  separated : ts.IsChain Separated
  reads : ∀ t ∈ ts, d.ReadsPlain cs t ∨ ∃ k q, d.ReadsMarker cs t k q
  lines : ∀ t ∈ ts, t.line = 1 + newlines (cs.take t.start)

/-- The end of the last marker among some tokens, or `a` when there is none. -/
def lastMarkerEnd (a : Nat) (ts : List Token) : Nat :=
  ts.foldl (fun a t => if t.kind = .text then a else t.stop) a

/-- Tokens cut a source at its leftmost and shortest markers: they cut it from the beginning, and
each marker starts at the first position, from the end of the marker before it on, at which some
marker starts. -/
structure Segmentation (d : Delimiters) (source : String) (ts : List Token) : Prop
    extends CutFrom d source.toList 0 ts where
  leftmost : ∀ us t vs, ts = us ++ t :: vs → t.kind ≠ .text →
    IsLeast {p | lastMarkerEnd 0 us ≤ p ∧ d.Starts source.toList p} t.start

/-- The kind of a marker is never plain text. -/
theorem tokenKind_ne_text (k : MarkerKind) : tokenKind k ≠ .text := by cases k <;> simp [tokenKind]

/-- A token of a marker starts where a marker starts. -/
theorem ReadsMarker.starts {t : Token} {k : MarkerKind} {q : Nat} (h : d.ReadsMarker cs t k q) :
    d.Starts cs t.start := ⟨k, q, h.shortest.1⟩

theorem tile_append {us vs : List Token} {a b : Nat} :
    Tile (us ++ vs) a b ↔ ∃ m, Tile us a m ∧ Tile vs m b := by
  induction us generalizing a with
  | nil => simp [Tile]
  | cons t us ih =>
    simp only [List.cons_append, Tile, ih]
    constructor
    · rintro ⟨hs, hlt, m, hu, hv⟩
      exact ⟨m, ⟨hs, hlt, hu⟩, hv⟩
    · rintro ⟨m, ⟨hs, hlt, hu⟩, hv⟩
      exact ⟨hs, hlt, m, hu, hv⟩

theorem Tile.le {ts : List Token} {a b : Nat} (h : Tile ts a b) : a ≤ b := by
  induction ts generalizing a with
  | nil => exact Nat.le_of_eq h
  | cons t ts ih =>
    obtain ⟨rfl, hlt, hrest⟩ := h
    exact Nat.le_trans (Nat.le_of_lt hlt) (ih hrest)

/-- No token starts in front of the first position. -/
theorem Tile.le_start {ts : List Token} {a b : Nat} (h : Tile ts a b) : ∀ t ∈ ts, a ≤ t.start := by
  induction ts generalizing a with
  | nil => exact fun t ht => absurd ht List.not_mem_nil
  | cons t ts ih =>
    obtain ⟨rfl, hlt, hrest⟩ := h
    refine List.forall_mem_cons.mpr ⟨Nat.le_refl _, fun u hu => ?_⟩
    exact Nat.le_trans (Nat.le_of_lt hlt) (ih hrest u hu)

/-- No token lies there twice, for each starts behind the one before it. -/
theorem Tile.nodup {ts : List Token} {a b : Nat} (h : Tile ts a b) : ts.Nodup := by
  induction ts generalizing a with
  | nil => exact List.nodup_nil
  | cons t ts ih =>
    obtain ⟨rfl, hlt, hrest⟩ := h
    refine List.nodup_cons.mpr ⟨fun ht => ?_, ih hrest⟩
    exact Nat.not_le_of_lt hlt (hrest.le_start t ht)

/-! ## 4. A segmentation is unique -/

/-- **The token of a marker is determined by where it starts.** -/
theorem ReadsMarker.unique {t t' : Token} {k k' : MarkerKind} {q q' : Nat}
    (h : d.ReadsMarker cs t k q) (h' : d.ReadsMarker cs t' k' q') (hs : t.start = t'.start)
    (hl : t.line = t'.line) : t = t' := by
  obtain rfl : k' = k := (h.only k').mp (hs ▸ (h'.only k').mpr rfl)
  obtain rfl : q = q' := h.shortest.unique (hs ▸ h'.shortest)
  obtain ⟨kind, contents, start, stop, line⟩ := t
  obtain ⟨kind', contents', start', stop', line'⟩ := t'
  obtain rfl : start = start' := hs
  simp only [Token.mk.injEq, true_and]
  exact ⟨h.kind.trans h'.kind.symm, h.contents.trans h'.contents.symm,
    h.stop.trans h'.stop.symm, hl⟩

/-- The token of plain text is determined by where it starts and stops. -/
theorem ReadsPlain.unique {t t' : Token} (h : d.ReadsPlain cs t) (h' : d.ReadsPlain cs t')
    (hs : t.start = t'.start) (he : t.stop = t'.stop) (hl : t.line = t'.line) : t = t' := by
  obtain ⟨kind, contents, start, stop, line⟩ := t
  obtain ⟨kind', contents', start', stop', line'⟩ := t'
  obtain rfl : start = start' := hs
  obtain rfl : stop = stop' := he
  simp only [Token.mk.injEq, true_and]
  exact ⟨h.kind.trans h'.kind.symm, h.contents.trans h'.contents.symm, hl⟩

/-- The first token of a cut starts where the cut does. -/
theorem CutFrom.start {a : Nat} {t : Token} {ts : List Token} (h : d.CutFrom cs a (t :: ts)) :
    t.start = a := h.tile.1

/-- Behind its first token a cut goes on. -/
theorem CutFrom.rest {a : Nat} {t : Token} {ts : List Token} (h : d.CutFrom cs a (t :: ts)) :
    d.CutFrom cs t.stop ts :=
  ⟨h.tile.2.2, h.separated.tail, fun u hu => h.reads u (List.mem_cons_of_mem t hu),
    fun u hu => h.lines u (List.mem_cons_of_mem t hu)⟩

/-- **Behind plain text a marker starts, or the source ends.** -/
theorem CutFrom.behind_plain {a : Nat} {t : Token} {ts : List Token} (h : d.CutFrom cs a (t :: ts))
    (ht : t.kind = .text) : t.stop = cs.length ∨ d.Starts cs t.stop := by
  cases ts with
  | nil => exact .inl h.tile.2.2
  | cons u us =>
    have hu : u.kind ≠ .text := fun hu => (List.isChain_cons_cons.mp h.separated).1 ⟨ht, hu⟩
    rcases h.reads u (by simp) with hp | ⟨k, q, hm⟩
    · exact absurd hp.kind hu
    · exact .inr (h.rest.start ▸ hm.starts)

/-- Of two cuts that both begin with plain text, the first text is not the longer one. -/
theorem CutFrom.plain_stop_le {a : Nat} {t t' : Token} {ts ts' : List Token}
    (h : d.CutFrom cs a (t :: ts)) (h' : d.CutFrom cs a (t' :: ts')) (hp : d.ReadsPlain cs t)
    (hp' : d.ReadsPlain cs t') : t.stop ≤ t'.stop := by
  by_contra hlt
  have hlt : t'.stop < t.stop := Nat.lt_of_not_le hlt
  have hstart : t.start ≤ t'.stop := by
    rw [h.start, ← h'.start]
    exact Nat.le_of_lt h'.tile.2.1
  rcases h'.behind_plain hp'.kind with hend | hmark
  · have := h.rest.tile.le
    omega
  · exact hp.noMarker t'.stop hstart hlt hmark

/-- The first tokens of two cuts agree. -/
theorem CutFrom.head_unique {a : Nat} {t t' : Token} {ts ts' : List Token}
    (h : d.CutFrom cs a (t :: ts)) (h' : d.CutFrom cs a (t' :: ts')) : t = t' := by
  have hs : t.start = t'.start := h.start.trans h'.start.symm
  have hl : t.line = t'.line := by rw [h.lines t (by simp), h'.lines t' (by simp), hs]
  rcases h.reads t (by simp) with hp | ⟨k, q, hm⟩
  · rcases h'.reads t' (by simp) with hp' | ⟨k', q', hm'⟩
    · exact hp.unique hp' hs (Nat.le_antisymm (h.plain_stop_le h' hp hp')
        (h'.plain_stop_le h hp' hp)) hl
    · exact absurd (hs ▸ hm'.starts) (hp.noMarker t.start (Nat.le_refl _) h.tile.2.1)
  · rcases h'.reads t' (by simp) with hp' | ⟨k', q', hm'⟩
    · exact absurd (hs ▸ hm.starts) (hp'.noMarker t'.start (Nat.le_refl _) h'.tile.2.1)
    · exact hm.unique hm' hs hl

/-- **Two cuts of a text from one position agree.** -/
theorem CutFrom.unique {a : Nat} {ts ts' : List Token} (h : d.CutFrom cs a ts)
    (h' : d.CutFrom cs a ts') : ts = ts' := by
  induction ts generalizing a ts' with
  | nil =>
    cases ts' with
    | nil => rfl
    | cons t' ts' =>
      have hend : a = cs.length := h.tile
      have := h'.rest.tile.le
      have := h'.tile.2.1
      have := h'.start
      omega
  | cons t ts ih =>
    cases ts' with
    | nil =>
      have hend : a = cs.length := h'.tile
      have := h.rest.tile.le
      have := h.tile.2.1
      have := h.start
      omega
    | cons t' ts' =>
      obtain rfl : t = t' := h.head_unique h'
      rw [ih h.rest h'.rest]

/-! ## 5. The reader gives a segmentation -/

/-- The kind whose opening delimiter a text begins with is found. -/
theorem opens?_of_opener {k : MarkerKind} {m : List Char} (h : d.opener k <+: m) :
    d.opens? m = some k := by
  cases hf : d.opens? m with
  | none =>
    have := List.find?_eq_none.mp hf k (MarkerKind.mem_all k)
    exact absurd (List.isPrefixOf_iff_prefix.mpr h) this
  | some k' =>
    have hk' := List.find?_some hf
    exact congrArg some (opener_unique (p := 0) h (List.isPrefixOf_iff_prefix.mp hk'))

/-- What remains of a marker without its delimiters. -/
theorem contents_marker (k : MarkerKind) (b : List Char) :
    d.contents k (d.opener k ++ b ++ d.closer k) = if k = .comment then b else strip b := by
  have hinner : slice (d.opener k).length
      (((d.opener k ++ b ++ d.closer k).length : Int) - (d.closer k).length)
      (d.opener k ++ b ++ d.closer k) = b := by
    have hstop : (((d.opener k ++ b ++ d.closer k).length : Int) - (d.closer k).length) =
        (((d.opener k).length + b.length : Nat) : Int) := by
      simp only [List.length_append]
      omega
    rw [hstop, slice, if_neg (by omega), Int.toNat_natCast]
    simp
  simp only [contents, hinner]

/-- **The token that is made of a marker is the one that its positions describe.** -/
theorem readsMarker_tokenOf (pre : List Char) {m rest : List Char} (line : Nat)
    (h : d.markerAt? (m ++ rest) = some (m, rest)) :
    ∃ k q, d.ReadsMarker (pre ++ (m ++ rest)) (d.tokenOf (.marker m) pre.length line) k q := by
  have hdrop : (pre ++ (m ++ rest)).drop pre.length = m ++ rest := List.drop_left
  obtain ⟨k, b, rfl, hopen, hleast⟩ := marks_of_markerAt? (hdrop.symm ▸ h)
  have hopens : d.opens? (d.opener k ++ b ++ d.closer k) = some k :=
    opens?_of_opener (by simp [List.append_assoc])
  have hbody : (pre ++ (d.opener k ++ b ++ d.closer k ++ rest)).extract
      (pre.length + (d.opener k).length) (pre.length + (d.opener k).length + b.length) = b := by
    simp [List.extract, ← List.drop_drop]
  refine ⟨k, pre.length + (d.opener k).length + b.length, ?_⟩
  simp only [tokenOf, tokenOfMarker, hopens, contents_marker]
  refine ⟨rfl, fun k' => ⟨fun h' => opener_unique hopen h', ?_⟩, hleast, ?_, ?_⟩
  · rintro rfl
    exact hopen
  · simp only [List.length_append]
    omega
  · simp only [hbody]

@[simp] theorem tokenOf_start (seg : Segment) (a l : Nat) : (d.tokenOf seg a l).start = a := by
  cases seg with
  | plain t => rfl
  | marker t => simp only [tokenOf, tokenOfMarker]; split <;> rfl

@[simp] theorem tokenOf_stop (seg : Segment) (a l : Nat) :
    (d.tokenOf seg a l).stop = a + seg.text.length := by
  cases seg with
  | plain t => rfl
  | marker t => simp only [tokenOf, tokenOfMarker]; split <;> rfl

@[simp] theorem tokenOf_line (seg : Segment) (a l : Nat) : (d.tokenOf seg a l).line = l := by
  cases seg with
  | plain t => rfl
  | marker t => simp only [tokenOf, tokenOfMarker]; split <;> rfl

@[simp] theorem newlines_append (cs ds : List Char) :
    newlines (cs ++ ds) = newlines cs + newlines ds := List.count_append

/-- **A segment in front of a cut.**  Its token must read what stands there, and two neighbours
are not both plain text. -/
theorem CutFrom.cons_place {a l : Nat} (seg : Segment) {segs : List Segment}
    (h : d.CutFrom cs (a + seg.text.length)
      (d.place (a + seg.text.length) (l + newlines seg.text) segs))
    (hne : seg.text ≠ []) (hline : l = 1 + newlines (cs.take a))
    (hreads : d.ReadsPlain cs (d.tokenOf seg a l) ∨ ∃ k q, d.ReadsMarker cs (d.tokenOf seg a l) k q)
    (hsep : ∀ u us, d.place (a + seg.text.length) (l + newlines seg.text) segs = u :: us →
      Separated (d.tokenOf seg a l) u) :
    d.CutFrom cs a (d.place a l (seg :: segs)) := by
  have hlen := List.length_pos_iff.mpr hne
  have htile : Tile (d.place a l (seg :: segs)) a cs.length := by
    refine ⟨tokenOf_start seg a l, ?_, (tokenOf_stop seg a l).symm ▸ h.tile⟩
    simp only [tokenOf_start, tokenOf_stop]
    omega
  refine ⟨htile, ?_, List.forall_mem_cons.mpr ⟨hreads, h.reads⟩,
    List.forall_mem_cons.mpr ⟨by simpa using hline, h.lines⟩⟩
  simp only [place]
  cases hp : d.place (a + seg.text.length) (l + newlines seg.text) segs with
  | nil => exact .singleton _
  | cons u us => exact .cons_cons (hsep u us hp) (hp ▸ h.separated)

/-- A single character of plain text. -/
theorem readsPlain_single {pre rest : List Char} {c : Char} {line : Nat}
    (hno : ¬ d.Starts (pre ++ c :: rest) pre.length) :
    d.ReadsPlain (pre ++ c :: rest) (d.tokenOf (.plain [c]) pre.length line) := by
  refine ⟨rfl, by simp [tokenOf, List.extract], ?_⟩
  intro p hp hlt
  obtain rfl : p = pre.length := by
    simp only [tokenOf, List.length_singleton] at hp hlt
    omega
  exact hno

/-- Plain text with one more character in front. -/
theorem ReadsPlain.grow {pre rest text : List Char} {c : Char} {line line' : Nat}
    (h : d.ReadsPlain (pre ++ c :: rest) (d.tokenOf (.plain text) (pre.length + 1) line'))
    (hno : ¬ d.Starts (pre ++ c :: rest) pre.length) :
    d.ReadsPlain (pre ++ c :: rest) (d.tokenOf (.plain (c :: text)) pre.length line) := by
  have htext : text = rest.take text.length := by
    have := String.ofList_injective h.contents
    simpa [tokenOf, List.extract] using this
  refine ⟨rfl, ?_, ?_⟩
  · simp [tokenOf, List.extract, ← htext]
  · intro p hp hlt
    simp only [tokenOf, List.length_cons] at hp hlt
    by_cases hpre : p = pre.length
    · exact hpre ▸ hno
    · refine h.noMarker p ?_ ?_ <;> simp only [tokenOf] <;> omega

/-- A cut that begins with plain text, with one more character of it in front. -/
theorem CutFrom.grow {pre rest text : List Char} {c : Char} {segs : List Segment}
    (h : d.CutFrom (pre ++ c :: rest) (pre.length + 1)
      (d.place (pre.length + 1) (1 + newlines pre + newlines [c]) (.plain text :: segs)))
    (hno : ¬ d.Starts (pre ++ c :: rest) pre.length) :
    d.CutFrom (pre ++ c :: rest) pre.length
      (d.place pre.length (1 + newlines pre) (.plain (c :: text) :: segs)) := by
  have hread := (h.reads _ List.mem_cons_self).resolve_right
    fun ⟨k, q, hm⟩ => tokenKind_ne_text k hm.kind.symm
  have hlen : pre.length + (Segment.plain (c :: text)).text.length =
      pre.length + 1 + text.length := by
    simp only [Segment.text, List.length_cons]
    omega
  have hlines : 1 + newlines pre + newlines (Segment.plain (c :: text)).text =
      1 + newlines pre + newlines [c] + newlines text := by
    rw [Segment.text, ← List.singleton_append, newlines_append, Nat.add_assoc _ (newlines [c])]
  refine CutFrom.cons_place (.plain (c :: text)) ?_ (by simp [Segment.text]) (by simp)
    (.inl (hread.grow hno)) ?_
  · rw [hlen, hlines]
    exact h.rest
  · rw [hlen, hlines]
    rintro u us hu ⟨-, ht⟩
    have hchain := h.separated
    rw [place, Segment.text, hu] at hchain
    exact (List.isChain_cons_cons.mp hchain).1 ⟨rfl, ht⟩

/-- Segments that begin with a marker are those of a text that begins with it. -/
theorem markerAt?_of_segments {m : List Char} {more : List Segment}
    (h : d.segments cs = .marker m :: more) : ∃ rest, d.markerAt? cs = some (m, rest) := by
  cases cs with
  | nil => simp [segments] at h
  | cons c rest =>
    rw [segments] at h
    split at h
    · rename_i m' behind hm
      obtain ⟨hm', -⟩ := List.cons.inj h
      exact ⟨behind, Segment.marker.inj hm' ▸ hm⟩
    · cases hs : d.segments rest with
      | nil => simp [hs, Segment.consPlain] at h
      | cons seg segs => cases seg <;> simp [hs, Segment.consPlain] at h

/-- **What the reader gives from a position on cuts the text from there.** -/
theorem cutFrom_place (pre rest : List Char) :
    d.CutFrom (pre ++ rest) pre.length
      (d.place pre.length (1 + newlines pre) (d.segments rest)) := by
  fun_induction d.segments rest generalizing pre with
  | case1 => exact ⟨by simp [place, Tile], .nil, by simp [place], by simp [place]⟩
  | case2 c rest m behind h ih =>
    have happ : m ++ behind = c :: rest := markerAt?_append h
    have htail : d.CutFrom (pre ++ (m ++ behind)) (pre.length + m.length)
        (d.place (pre.length + m.length) (1 + newlines pre + newlines m) (d.segments behind)) := by
      simpa [Nat.add_assoc] using ih (pre ++ m)
    rw [← happ] at h ⊢
    obtain ⟨k, q, hm⟩ := readsMarker_tokenOf pre (1 + newlines pre) h
    refine htail.cons_place (.marker m) (markerAt?_ne_nil h) (by simp) (.inr ⟨k, q, hm⟩) ?_
    rintro u us - ⟨ht, -⟩
    exact tokenKind_ne_text k (hm.kind.symm.trans ht)
  | case3 c rest h ih =>
    have hno : ¬ d.Starts (pre ++ c :: rest) pre.length :=
      not_starts_of_markerAt?_eq_none (by simpa using h)
    have htail : d.CutFrom (pre ++ c :: rest) (pre.length + 1)
        (d.place (pre.length + 1) (1 + newlines pre + newlines [c]) (d.segments rest)) := by
      simpa [Nat.add_assoc] using ih (pre ++ [c])
    -- the character joins plain text behind it, and stands alone in front of anything else
    cases hsegs : d.segments rest with
    | nil =>
      rw [hsegs] at htail
      exact htail.cons_place (.plain [c]) (by simp [Segment.text]) (by simp)
        (.inl (readsPlain_single hno)) (by simp [place])
    | cons seg segs =>
      rw [hsegs] at htail
      cases seg with
      | plain t => exact htail.grow hno
      | marker m =>
        obtain ⟨behind, hm⟩ := markerAt?_of_segments hsegs
        obtain rfl := markerAt?_append hm
        refine htail.cons_place (.plain [c]) (by simp [Segment.text]) (by simp)
          (.inl (readsPlain_single hno)) ?_
        rintro u us hu ⟨-, ht⟩
        obtain ⟨rfl, -⟩ := List.cons.inj hu
        obtain ⟨k, q, hk⟩ := readsMarker_tokenOf (pre ++ [c])
          (1 + newlines pre + newlines [c]) hm
        exact tokenKind_ne_text k (hk.kind.symm.trans (by simpa [Segment.text] using ht))

/-- The end of the last marker is where the tokens end, unless plain text is last. -/
theorem not_starts_behind_lastMarkerEnd {us : List Token} {a b m : Nat} (ht : Tile us b m)
    (hreads : ∀ t ∈ us, d.ReadsPlain cs t ∨ ∃ k q, d.ReadsMarker cs t k q)
    (hno : ∀ p, a ≤ p → p < b → ¬ d.Starts cs p) :
    ∀ p, lastMarkerEnd a us ≤ p → p < m → ¬ d.Starts cs p := by
  induction us generalizing a b with
  | nil =>
    obtain rfl : b = m := ht
    exact hno
  | cons t us ih =>
    obtain ⟨rfl, hlt, hrest⟩ := ht
    rw [lastMarkerEnd, List.foldl_cons, ← lastMarkerEnd]
    have hus := fun u hu => hreads u (List.mem_cons_of_mem t hu)
    rcases hreads t List.mem_cons_self with hp | ⟨k, q, hm⟩
    · rw [if_pos hp.kind]
      refine ih hrest hus fun p hap hpb => ?_
      by_cases h : p < t.start
      · exact hno p hap h
      · exact hp.noMarker p (Nat.le_of_not_lt h) hpb
    · rw [if_neg (hm.kind ▸ tokenKind_ne_text k)]
      exact ih hrest hus fun p h₁ h₂ => absurd h₁ (Nat.not_le_of_lt h₂)

/-- The last marker among tokens ends where they end at the latest. -/
theorem lastMarkerEnd_le {us : List Token} {a b m : Nat} (ht : Tile us b m) (hab : a ≤ b) :
    lastMarkerEnd a us ≤ m := by
  induction us generalizing a b with
  | nil =>
    obtain rfl : b = m := ht
    exact hab
  | cons t us ih =>
    obtain ⟨rfl, hlt, hrest⟩ := ht
    rw [lastMarkerEnd, List.foldl_cons, ← lastMarkerEnd]
    refine ih hrest ?_
    split <;> omega

/-- **In a cut each marker is the leftmost one behind the marker before it.** -/
theorem CutFrom.leftmost {ts us vs : List Token} {t : Token} (h : d.CutFrom cs 0 ts)
    (hts : ts = us ++ t :: vs) (hk : t.kind ≠ .text) :
    IsLeast {p | lastMarkerEnd 0 us ≤ p ∧ d.Starts cs p} t.start := by
  subst hts
  obtain ⟨m, hus, hvs⟩ := tile_append.mp h.tile
  obtain rfl : t.start = m := hvs.1
  have hstarts : d.Starts cs t.start := by
    rcases h.reads t (by simp) with hp | ⟨k, q, hm⟩
    · exact absurd hp.kind hk
    · exact hm.starts
  refine ⟨⟨lastMarkerEnd_le hus (Nat.le_refl 0), hstarts⟩, ?_⟩
  rintro p ⟨hle, hp⟩
  by_contra hlt
  exact not_starts_behind_lastMarkerEnd hus
    (fun u hu => h.reads u (List.mem_append_left _ hu))
    (fun p _ h₂ => absurd h₂ (Nat.not_lt_zero p)) p hle (Nat.lt_of_not_le hlt) hp

/-- **The tokens of a source are a segmentation of it.** -/
theorem segmentation_tokens (d : Delimiters) (source : String) :
    d.Segmentation source (d.tokens source) := by
  have h : d.CutFrom source.toList 0 (d.tokens source) := by
    simpa [tokens, newlines] using d.cutFrom_place [] source.toList
  exact ⟨h, fun us t vs hts hk => h.leftmost hts hk⟩

/-! ## 6. Results -/

/-- **The tokens of a source are its only segmentation at the leftmost and shortest markers.** -/
theorem tokens_eq_iff_segmentation (d : Delimiters) (source : String) (ts : List Token) :
    d.tokens source = ts ↔ d.Segmentation source ts := by
  constructor
  · rintro rfl
    exact segmentation_tokens d source
  · intro h
    exact (segmentation_tokens d source).toCutFrom.unique h.toCutFrom

/-- **The tokens of a source lie in it without a gap, with exact positions and lines.**  They are
not empty and start at 0 and end with the source; of two neighbours one is a marker; plain text is
what stands there; and a token's line is one more than the line feeds in front of it. -/
theorem tokens_partition (d : Delimiters) (source : String) :
    Tile (d.tokens source) 0 source.length ∧ (d.tokens source = [] ↔ source = "") ∧
      (d.tokens source).IsChain Separated ∧
      ∀ t ∈ d.tokens source,
        (t.kind = .text → t.contents = String.ofList (source.toList.extract t.start t.stop)) ∧
          t.line = 1 + newlines (source.toList.take t.start) := by
  obtain ⟨htile, hsep, hreads, hlines⟩ := (segmentation_tokens d source).toCutFrom
  refine ⟨String.length_toList ▸ htile, ?_, hsep, fun t ht => ⟨fun hk => ?_, hlines t ht⟩⟩
  · constructor
    · intro h
      rw [h] at htile
      exact String.length_eq_zero_iff.mp (by simpa using htile.symm)
    · rintro rfl
      simp [tokens, segments, place]
  · rcases hreads t ht with hp | ⟨k, q, hm⟩
    · exact hp.contents
    · exact absurd (hm.kind.symm.trans hk) (tokenKind_ne_text k)

end Delimiters
end TextTemplate
