/-
# Blank characters

Blanks separate the words of a statement and are dropped around the contents of a marker.  A
blank is any character of Unicode's white space and the four information separators.

* `isBlank` is the class, `strip` drops blanks at both ends;
* `firstWord` is the first blank-free run of a text, and `words` all of them;
* `before?` cuts a text at the first occurrence of another, `splitAt` at every occurrence of a
  character.
-/

namespace TextTemplate.Text

/-! ## 1. The class -/

/-- Is the character blank? -/
def isBlank (c : Char) : Bool :=
  let n := c.toNat
  (9 ≤ n ∧ n ≤ 13) ∨ (28 ≤ n ∧ n ≤ 32) ∨ n = 0x85 ∨ n = 0xa0 ∨ n = 0x1680 ∨
    (0x2000 ≤ n ∧ n ≤ 0x200a) ∨ n = 0x2028 ∨ n = 0x2029 ∨ n = 0x202f ∨ n = 0x205f ∨ n = 0x3000

/-! ## 2. Ends and words -/

/-- The text without the blanks it begins with. -/
def stripLeft (cs : List Char) : List Char := cs.dropWhile isBlank

/-- The text without the blanks it ends with. -/
def stripRight (cs : List Char) : List Char := (cs.reverse.dropWhile isBlank).reverse

/-- The text without the blanks at its two ends. -/
def strip (cs : List Char) : List Char := stripRight (stripLeft cs)

/-- The first word of a text: its first maximal run without blanks.  Empty exactly when the text
holds nothing but blanks. -/
def firstWord (cs : List Char) : List Char := (stripLeft cs).takeWhile (!isBlank ·)

/-- All words of a text, in order; `word` is the word read so far, backwards. -/
def wordsFrom (word : List Char) : List Char → List (List Char)
  | [] => if word.isEmpty then [] else [word.reverse]
  | c :: cs =>
    if isBlank c then
      if word.isEmpty then wordsFrom [] cs else word.reverse :: wordsFrom [] cs
    else wordsFrom (c :: word) cs

/-- All words of a text, in order. -/
def words (cs : List Char) : List (List Char) := wordsFrom [] cs

/-! ## 3. Cutting -/

/-- The texts before and after the first occurrence of `sep`, if there is one. -/
def before? (sep : List Char) : List Char → Option (List Char × List Char)
  | [] => if sep.isEmpty then some ([], []) else none
  | c :: cs =>
    if sep.isPrefixOf (c :: cs) then some ([], (c :: cs).drop sep.length)
    else (before? sep cs).map fun p => (c :: p.1, p.2)

/-- Put a character in front of the first of some texts. -/
def consFirst (c : Char) : List (List Char) → List (List Char)
  | [] => [[c]]
  | t :: ts => (c :: t) :: ts

/-- The texts between the occurrences of a character; one more than there are occurrences. -/
def splitAt (sep : Char) : List Char → List (List Char)
  | [] => [[]]
  | c :: cs => if c = sep then [] :: splitAt sep cs else consFirst c (splitAt sep cs)

/-- The characters from `start` up to `stop`; a negative `stop` counts back from the end. -/
def slice (start : Nat) (stop : Int) (cs : List Char) : List Char :=
  let stop := if stop < 0 then (stop + cs.length).toNat else stop.toNat
  (cs.drop start).take (stop - start)

end TextTemplate.Text
