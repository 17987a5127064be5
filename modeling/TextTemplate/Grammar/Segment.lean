/-
# Segments

A source is cut into plain text and markers.  A marker begins at the first position where an
opening delimiter is followed, on the same line, by its closing delimiter, and ends with the
first such closing delimiter; the next marker is looked for behind it.

* `Delimiters.markerAt?` reads a marker at the beginning of a text;
* `Delimiters.segments` cuts a source;
* `Delimiters.tokens` gives each segment its place, and each marker its kind and its contents.
-/
import TextTemplate.Grammar.Delimiters
import TextTemplate.Text.Line
import TextTemplate.Token

namespace TextTemplate

open TextTemplate.Text

namespace Delimiters

/-! ## 1. Markers -/

/-- The text in front of the first closing delimiter and the text behind it.  There is none when a
line ends before. -/
def body? (closer : List Char) : List Char → Option (List Char × List Char)
  | [] => none
  | c :: cs =>
    if closer.isPrefixOf (c :: cs) then some ([], (c :: cs).drop closer.length)
    else if c = '\n' then none
    else (body? closer cs).map fun p => (c :: p.1, p.2)

/-- A marker of one kind at the beginning of a text, and the text behind it. -/
def markerOf? (d : Delimiters) (cs : List Char) (k : MarkerKind) : Option (List Char × List Char) :=
  if (d.opener k).isPrefixOf cs then
    (body? (d.closer k) (cs.drop (d.opener k).length)).map fun p =>
      (d.opener k ++ p.1 ++ d.closer k, p.2)
  else none

/-- A marker of any kind at the beginning of a text, and the text behind it. -/
def markerAt? (d : Delimiters) (cs : List Char) : Option (List Char × List Char) :=
  MarkerKind.all.findSome? (d.markerOf? cs)

theorem append_drop_of_isPrefixOf {l cs : List Char} (h : l.isPrefixOf cs = true) :
    l ++ cs.drop l.length = cs := by
  obtain ⟨t, rfl⟩ := List.isPrefixOf_iff_prefix.mp h
  simp

/-- **A body, its closing delimiter and the rest make up the text.** -/
theorem body?_append {closer : List Char} :
    ∀ {cs : List Char} {p : List Char × List Char}, body? closer cs = some p →
      p.1 ++ closer ++ p.2 = cs
  | [], _, h => by simp [body?] at h
  | c :: cs, p, h => by
    simp only [body?] at h
    split at h
    · rename_i hp
      simp only [Option.some.injEq] at h
      subst h
      simpa using append_drop_of_isPrefixOf hp
    · split at h
      · simp at h
      · simp only [Option.map_eq_some_iff] at h
        obtain ⟨q, hq, rfl⟩ := h
        simp [← body?_append hq]

/-- **A marker and the rest make up the text.** -/
theorem markerAt?_append {d : Delimiters} {cs : List Char} {p : List Char × List Char}
    (h : d.markerAt? cs = some p) : p.1 ++ p.2 = cs := by
  obtain ⟨_, k, _, _, hk, _⟩ := List.findSome?_eq_some_iff.mp h
  simp only [markerOf?] at hk
  split at hk
  · rename_i hp
    simp only [Option.map_eq_some_iff] at hk
    obtain ⟨q, hq, rfl⟩ := hk
    calc
      d.opener k ++ q.1 ++ d.closer k ++ q.2
          = d.opener k ++ (q.1 ++ d.closer k ++ q.2) := by simp
      _ = d.opener k ++ cs.drop (d.opener k).length := by rw [body?_append hq]
      _ = cs := append_drop_of_isPrefixOf hp
  · simp at hk

/-- A marker is not empty. -/
theorem markerAt?_ne_nil {d : Delimiters} {cs : List Char} {p : List Char × List Char}
    (h : d.markerAt? cs = some p) : p.1 ≠ [] := by
  obtain ⟨_, k, _, _, hk, _⟩ := List.findSome?_eq_some_iff.mp h
  simp only [markerOf?] at hk
  split at hk
  · simp only [Option.map_eq_some_iff] at hk
    obtain ⟨q, _, rfl⟩ := hk
    simp [d.opener_ne_nil k]
  · simp at hk

theorem markerAt?_rest_lt {d : Delimiters} {cs : List Char} {p : List Char × List Char}
    (h : d.markerAt? cs = some p) : p.2.length < cs.length := by
  have h₁ := congrArg List.length (markerAt?_append h)
  have h₂ := List.length_pos_iff.mpr (markerAt?_ne_nil h)
  simp only [List.length_append] at h₁
  omega

end Delimiters

/-! ## 2. Segments -/

/-- A piece of a source. -/
inductive Segment where
  | plain (text : List Char)
  | marker (text : List Char)
  deriving DecidableEq, Repr

namespace Segment

/-- The text of a segment. -/
def text : Segment → List Char
  | plain t => t
  | marker t => t

/-- Put a character of plain text in front of segments. -/
def consPlain (c : Char) : List Segment → List Segment
  | plain t :: rest => plain (c :: t) :: rest
  | segments => plain [c] :: segments

end Segment

namespace Delimiters

/-- The segments of a source. -/
def segments (d : Delimiters) (cs : List Char) : List Segment :=
  match cs with
  | [] => []
  | c :: rest =>
    match _h : d.markerAt? (c :: rest) with
    | some (m, behind) => .marker m :: d.segments behind
    | none => Segment.consPlain c (d.segments rest)
termination_by cs.length
decreasing_by
  · exact markerAt?_rest_lt _h
  · simp

/-! ## 3. Tokens -/

/-- The kind of token that a marker is. -/
def tokenKind : MarkerKind → TokenKind
  | .statement => .statement
  | .expression => .expression
  | .comment => .comment

/-- The kind of marker that opens at the beginning of a text. -/
def opens? (d : Delimiters) (cs : List Char) : Option MarkerKind :=
  MarkerKind.all.find? fun k => (d.opener k).isPrefixOf cs

/-- The contents of a marker: what remains without the delimiters.  Blanks at the ends count in a
comment only. -/
def contents (d : Delimiters) (k : MarkerKind) (cs : List Char) : List Char :=
  let inner := slice (d.opener k).length (cs.length - (d.closer k).length : Int) cs
  if k = .comment then inner else strip inner

/-- The token of a marker with a place.  A text that no opening delimiter begins is plain. -/
def tokenOfMarker (d : Delimiters) (cs : List Char) (start stop line : Nat) : Token :=
  match d.opens? cs with
  | some k => ⟨tokenKind k, String.ofList (d.contents k cs), start, stop, line⟩
  | none => ⟨.text, String.ofList cs, start, stop, line⟩

/-- The token of a segment with a place. -/
def tokenOf (d : Delimiters) (seg : Segment) (start line : Nat) : Token :=
  match seg with
  | .plain t => ⟨.text, String.ofList t, start, start + t.length, line⟩
  | .marker t => d.tokenOfMarker t start (start + t.length) line

/-- The tokens of segments that start at a position and in a line. -/
def place (d : Delimiters) (start line : Nat) : List Segment → List Token
  | [] => []
  | seg :: rest =>
    d.tokenOf seg start line :: d.place (start + seg.text.length) (line + newlines seg.text) rest

/-- The tokens of a source.  Lines are numbered from 1. -/
def tokens (d : Delimiters) (source : String) : List Token := d.place 0 1 (d.segments source.toList)

end Delimiters
end TextTemplate
