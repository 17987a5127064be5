/-
# Upper, lower and title case

The three case conversions of a text.  Only the capital sigma depends on its neighbours: it
becomes the final small sigma where it ends a word.  In title case a word begins after every
character without case, so `they're` has two words.

* `upper`, `lower` and `title` convert a text;
* `isFinal` says when a sigma ends a word.
-/
import TextTemplate.Text.CaseTable

namespace TextTemplate.Text

/-! ## 1. Single characters -/

/-- The image of one character: a listed expansion, else by the runs. -/
def mapCase (expansions : List (Nat × List Nat)) (runs : List CaseRun) (c : Char) : List Char :=
  match expansions.lookup c.toNat with
  | some image => image.map Char.ofNat
  | none => [Char.ofNat (mapByRuns c.toNat runs)]

/-- The upper case of a character. -/
def upperOf (c : Char) : List Char :=
  if c.toNat < 0x80 then [c.toUpper] else mapCase upperExpansions upperRuns c

/-- The lower case of a character, wherever it stands. -/
def lowerOf (c : Char) : List Char :=
  if c.toNat < 0x80 then [c.toLower] else mapCase lowerExpansions lowerRuns c

/-- The title case of a character. -/
def titleOf (c : Char) : List Char :=
  if c.toNat < 0x80 then [c.toUpper] else mapCase titleExpansions titleRuns c

/-- Does the character have case? -/
def isCased (c : Char) : Bool := inRanges c.toNat casedRanges

/-- Is the character passed over when a word's end is looked for? -/
def isCaseIgnorable (c : Char) : Bool := inRanges c.toNat caseIgnorableRanges

/-! ## 2. Texts -/

/-- Does the first character that is not passed over have case? -/
def startsCased (cs : List Char) : Bool :=
  match cs.dropWhile isCaseIgnorable with
  | [] => false
  | c :: _ => isCased c

/-- A sigma is final when a cased character precedes it and none follows; `before` is the text
before it, backwards. -/
def isFinal (before after : List Char) : Bool := startsCased before && !startsCased after

/-- The lower case of a character between `before`, given backwards, and `after`. -/
def lowerBetween (before : List Char) (c : Char) (after : List Char) : List Char :=
  if c = 'Σ' then (if isFinal before after then ['ς'] else ['σ']) else lowerOf c

/-- The upper case of a text. -/
def upper (cs : List Char) : List Char := cs.flatMap upperOf

/-- The lower case of a text that follows `before`, given backwards. -/
def lowerFrom (before : List Char) : List Char → List Char
  | [] => []
  | c :: cs => lowerBetween before c cs ++ lowerFrom (c :: before) cs

/-- The lower case of a text. -/
def lower (cs : List Char) : List Char := lowerFrom [] cs

/-- The title case of a text that follows `before`, given backwards: a character after a cased
one is lowered, any other gets its title case. -/
def titleFrom (before : List Char) : List Char → List Char
  | [] => []
  | c :: cs =>
    let inWord := match before with
      | [] => false
      | b :: _ => isCased b
    (if inWord then lowerBetween before c cs else titleOf c) ++ titleFrom (c :: before) cs

/-- The title case of a text. -/
def title (cs : List Char) : List Char := titleFrom [] cs

end TextTemplate.Text
