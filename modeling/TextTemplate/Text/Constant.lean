/-
# String constants inside an expression

An expression may hold constants between single or double quotes, in which a backslash takes the
next character as it is.  A `|` separates filters only where it stands outside every constant.

* `Reading` is the state of a reader between two characters, `Reading.next` its one step, and
  `isClosed` says that a whole text leaves the reader outside;
* `splitPipeline` cuts a text at every `|` whose rest is closed;
* `takeConstant` reads one constant, `unescape` gives the text that a constant stands for, and
  `constantOf` writes a text as a constant.
-/

namespace TextTemplate.Text

/-! ## 1. Reading left to right -/

/-- Is the character one of the two quotes? -/
def isQuote (c : Char) : Bool := c = '"' ∨ c = '\''

/-- Where a reader is: outside every constant, inside one with the given quote, behind a
backslash inside one, or broken off by a backslash before a line break. -/
inductive Reading where
  | outside
  | inside (quote : Char)
  | escaped (quote : Char)
  | broken
  deriving DecidableEq, Repr

/-- One character further. -/
def Reading.next : Reading → Char → Reading
  | .outside, c => if isQuote c then .inside c else .outside
  | .inside q, c => if c = '\\' then .escaped q else if c = q then .outside else .inside q
  | .escaped q, c => if c = '\n' then .broken else .inside q
  | .broken, _ => .broken

/-- Where a reader gets to by reading a text. -/
def Reading.through (r : Reading) (cs : List Char) : Reading := cs.foldl Reading.next r

/-- Does the text, read from outside, end outside?  Then every constant in it is closed. -/
def isClosed (cs : List Char) : Bool := Reading.through .outside cs = .outside

/-! ## 2. The pipeline -/

/-- The parts of a text between its separators.  A `|` is a separator when the text after it is
closed. -/
def splitPipeline : List Char → List (List Char)
  | [] => [[]]
  | c :: cs =>
    if c = '|' ∧ isClosed cs then [] :: splitPipeline cs
    else
      match splitPipeline cs with
      | [] => [[c]]
      | part :: parts => (c :: part) :: parts

/-! ## 3. One constant -/

/-- Read on inside a constant with quote `q`: the characters up to and with the closing quote,
and the rest.  There is none when the constant is not closed. -/
def takeConstant (q : Char) : List Char → Option (List Char × List Char)
  | [] => none
  | [c] => if c = q then some ([c], []) else none
  | c :: d :: cs =>
    if c = '\\' then
      if d = '\n' then none else (takeConstant q cs).map fun p => (c :: d :: p.1, p.2)
    else if c = q then some ([c], d :: cs)
    else (takeConstant q (d :: cs)).map fun p => (c :: p.1, p.2)

/-- Replace each occurrence of the two characters `a b`, left to right, by `b`. -/
def dropBefore (a b : Char) : List Char → List Char
  | [] => []
  | [c] => [c]
  | c :: d :: cs => if c = a ∧ d = b then b :: dropBefore a b cs else c :: dropBefore a b (d :: cs)

/-- The text that stands between the quotes `q` of a constant: first the escaped quotes are
resolved, then the escaped backslashes. -/
def unescape (q : Char) (cs : List Char) : List Char := dropBefore '\\' '\\' (dropBefore '\\' q cs)

/-- The text of a constant, if `cs` begins and ends with the same quote. -/
def constant? (cs : List Char) : Option (List Char) :=
  match cs with
  | q :: d :: rest =>
    if isQuote q ∧ (d :: rest).getLast? = some q then some (unescape q (d :: rest).dropLast)
    else none
  | _ => none

/-- A text written as a constant with quote `q`: backslashes and the quote are escaped. -/
def constantOf (q : Char) (cs : List Char) : List Char :=
  q :: cs.flatMap (fun c => if c = q ∨ c = '\\' then ['\\', c] else [c]) ++ [q]

/-- **A constant that is read is a part of the text**, and at least its closing quote. -/
theorem takeConstant_append {q : Char} :
    ∀ {cs body rest : List Char}, takeConstant q cs = some (body, rest) →
      body ++ rest = cs ∧ body ≠ []
  | [], _, _, h => by simp [takeConstant] at h
  | [c], body, rest, h => by
    simp only [takeConstant] at h
    split at h
    · simp only [Option.some.injEq, Prod.mk.injEq] at h
      obtain ⟨rfl, rfl⟩ := h
      simp
    · simp at h
  | c :: d :: cs, body, rest, h => by
    simp only [takeConstant] at h
    split at h
    · split at h
      · simp at h
      · simp only [Option.map_eq_some_iff, Prod.exists, Prod.mk.injEq] at h
        obtain ⟨b, r, hb, rfl, rfl⟩ := h
        simp [(takeConstant_append hb).1]
    · split at h
      · simp only [Option.some.injEq, Prod.mk.injEq] at h
        obtain ⟨rfl, rfl⟩ := h
        simp
      · simp only [Option.map_eq_some_iff, Prod.exists, Prod.mk.injEq] at h
        obtain ⟨b, r, hb, rfl, rfl⟩ := h
        simp [(takeConstant_append hb).1]

/-- What follows a constant is shorter than the text it was read from. -/
theorem takeConstant_rest_lt {q : Char} {cs body rest : List Char}
    (h : takeConstant q cs = some (body, rest)) : rest.length < cs.length := by
  obtain ⟨rfl, hb⟩ := takeConstant_append h
  have := List.length_pos_iff.mpr hb
  simp only [List.length_append]
  omega

end TextTemplate.Text
