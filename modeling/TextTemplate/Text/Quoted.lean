/-
# Quoted text

How a text is shown inside a list, a mapping or a message: between quotes, with escapes for what
cannot be seen.

* `quoteFor` picks the quote: single, unless only single quotes occur in the text;
* `quoted` writes the text between them.
-/
import TextTemplate.Text.Printable

namespace TextTemplate.Text

/-- The digits `0` to `9` and `a` to `f`. -/
def hexDigit (n : Nat) : Char :=
  if n < 10 then Char.ofNat (0x30 + n) else Char.ofNat (0x57 + n)

/-- The last `width` hexadecimal digits of a number. -/
def hex : (width : Nat) → Nat → List Char
  | 0, _ => []
  | width + 1, n => hex width (n / 16) ++ [hexDigit (n % 16)]

/-- Texts are quoted with single quotes, unless they hold single quotes and no double ones. -/
def quoteFor (cs : List Char) : Char := if '\'' ∈ cs ∧ '"' ∉ cs then '"' else '\''

/-- One character of a text between quotes `q`. -/
def quotedChar (q c : Char) : List Char :=
  if c = q ∨ c = '\\' then ['\\', c]
  else if c = '\n' then ['\\', 'n']
  else if c = '\r' then ['\\', 'r']
  else if c = '\t' then ['\\', 't']
  else if isPrintable c then [c]
  else if c.toNat < 0x100 then '\\' :: 'x' :: hex 2 c.toNat
  else if c.toNat < 0x10000 then '\\' :: 'u' :: hex 4 c.toNat
  else '\\' :: 'U' :: hex 8 c.toNat

/-- The text between quotes. -/
def quotedChars (cs : List Char) : List Char :=
  let q := quoteFor cs
  q :: cs.flatMap (quotedChar q) ++ [q]

/-- The text between quotes. -/
def quoted (s : String) : String := String.ofList (quotedChars s.toList)

end TextTemplate.Text
