/-
# Escaping for markup and for scripts

Output goes into a page, so characters that would be read as markup are replaced by character
references; a text meant for a script literal is escaped by code point instead.

* `escapeMarkup` replaces the five characters with a meaning in markup;
* `escapeScript` replaces what could end a script literal or the element around it.
-/

namespace TextTemplate.Text

/-! ## 1. Markup -/

/-- The reference that stands for a character in markup, or the character. -/
def markupReference : Char → List Char
  | '&' => ['&', 'a', 'm', 'p', ';']
  | '<' => ['&', 'l', 't', ';']
  | '>' => ['&', 'g', 't', ';']
  | '"' => ['&', 'q', 'u', 'o', 't', ';']
  | '\'' => ['&', '#', 'x', '2', '7', ';']
  | c => [c]

/-- The text with every character that has a meaning in markup replaced. -/
def escapeMarkup (s : String) : String := String.ofList (s.toList.flatMap markupReference)

/-! ## 2. Scripts -/

/-- The digits `0` to `9` and `A` to `F`. -/
def upperHexDigit (n : Nat) : Char :=
  if n < 10 then Char.ofNat (0x30 + n) else Char.ofNat (0x37 + n)

/-- A code point below 65536 as `\u` and four digits. -/
def scriptReference (n : Nat) : List Char :=
  ['\\', 'u', upperHexDigit (n / 4096 % 16), upperHexDigit (n / 256 % 16),
    upperHexDigit (n / 16 % 16), upperHexDigit (n % 16)]

/-- Is the character escaped in a script? -/
def isScriptSpecial (c : Char) : Bool :=
  c.toNat < 32 ∨ c ∈ ['\\', '\'', '"', '>', '<', '&', '=', '-', ';', '`', '\u2028', '\u2029']

/-- The text with every character that is special in a script replaced. -/
def escapeScript (s : String) : String :=
  String.ofList (s.toList.flatMap fun c =>
    if isScriptSpecial c then scriptReference c.toNat else [c])

/-! ## 3. What cannot come out -/

/-- None of `<`, `>` and the two quotes is left after escaping for markup. -/
theorem not_mem_markupReference {c d : Char} (hd : d ∈ ['<', '>', '"', '\'']) :
    d ∉ markupReference c := by
  simp only [List.mem_cons, List.not_mem_nil, or_false] at hd
  unfold markupReference
  rcases hd with rfl | rfl | rfl | rfl <;> split <;> simp <;> rintro rfl <;> contradiction

end TextTemplate.Text
