/-
# Further tags

Tags for trying an engine out: blocks of all shapes, a tag that fails, one that shows the open
blocks, and two that compile templates themselves.

* `Tag.extras` is the table of all of them, and `Library.extras` the library with the further
  filters too;
* `Tag.tagged` is a tag that gives no instructions.
-/
import TextTemplate.Extras.Filters
import TextTemplate.Template

namespace TextTemplate

open TextTemplate.Decimal TextTemplate.Text

namespace Tag

/-- Write a rule. -/
def rule : Tag where
  name := "hr"
  compile _ := pure (.inline [.literal "<hr>"])

/-- Write the value of an expression. -/
def echo : Tag where
  name := "echo"
  compile remainder := do pure (.inline [.expression (← Parse.expression remainder)])

/-- Put the block into brackets, with a text at the beginning. -/
def box : Tag where
  name := "box"
  compile remainder :=
    pure (.block [.literal ("[" ++ String.ofList remainder)] (some [.literal "]"]) none)

/-- Put the block into parentheses; the tag says what closes it. -/
def bracketed : Tag where
  name := "until"
  compile remainder :=
    pure (.block [.literal "("] (some [.literal ")"]) (some (String.ofList remainder)))

/-- The beginning of a block that is never closed. -/
def opener : Tag where
  name := "opener"
  compile _ := pure (.block [.literal "<<"] none none)

/-- Give a text instead of instructions. -/
def bad : Tag where
  name := "bad"
  compile remainder := pure (.other (.plain (String.ofList remainder)))

/-- Fail about a text. -/
def explode : Tag where
  name := "explode"
  compile remainder :=
    Parse.fail (.raised .badValue (some (.plain (String.ofList remainder))))

/-- Write what would close the open blocks, the outermost first. -/
def stack : Tag where
  name := "stack"
  compile _ := do
    let names := (← get).pending.reverse.map (·.closeName)
    pure (.inline [.literal (",".intercalate names)])

/-- Compile a template at once, and write its variables and its size. -/
def nest : Tag where
  name := "nest"
  compile remainder := do
    let source := Value.plain (String.ofList remainder)
    let t ← Parse.eval (Template.compile Engine.standard none source .empty)
    pure (.inline [.literal (",".intercalate t.references ++ ":" ++ decimalNat t.program.size)])

/-- Render the text of an expression as a template. -/
def sub : Tag where
  name := "sub"
  compile remainder := do pure (.inline [.nested (← Parse.expression remainder)])

theorem run_sub (remainder : List Char) : sub.run remainder =
    Compile.expression remainder >>= fun e => pure (.inline [.nested e]) :=
  Compile.parsing_bind _ _

/-- The further tags by name. -/
def extras : Table Tag :=
  [("hr", rule), ("echo", echo), ("box", box), ("until", bracketed), ("opener", opener),
    ("bad", bad), ("explode", explode), ("stack", stack), ("nest", nest), ("sub", sub)]

/-- A tag that gives what stands behind it after its own name, instead of instructions. -/
def tagged (name : String) : Tag where
  name := name
  compile remainder :=
    pure (.other (.plain (Filter.taggedText name (String.ofList remainder))))

end Tag

/-- The library of the further tags and filters; `kindOf` are the kinds of errors by name. -/
def Library.extras (kindOf : String → ErrorKind) : Library := ⟨Tag.extras, Filter.extras kindOf⟩

end TextTemplate
