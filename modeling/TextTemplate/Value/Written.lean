/-
# How values are written

A value is **shown** when it becomes part of the output: a text is itself, an object may have a
text of its own.  Inside another value, and in messages, a value is **written**: texts are
quoted, containers list their items.  Neither exists for a number with too many digits.  A container
that holds itself is written out as often as there are containers, and then cut short.

* `Store.written?` writes a value, `Store.shown?` shows it.
-/
import TextTemplate.Decimal.Shortest
import TextTemplate.Text.Quoted
import TextTemplate.Value.Basic

namespace TextTemplate

open TextTemplate.Decimal TextTemplate.Text

/-- Texts between commas. -/
def commaSeparated (parts : List String) : String := ", ".intercalate parts

/-- The items of a tuple between parentheses; a single item keeps its comma. -/
def tupleText : List String → String
  | [part] => "(" ++ part ++ ",)"
  | parts => "(" ++ commaSeparated parts ++ ")"

/-- An object's place holder. -/
def objectText (name : String) : String := "<" ++ name ++ ">"

namespace Store

/-- A value as it is written, with references followed at most `fuel` deep. -/
def writtenWithin (s : Store) : (fuel : Nat) → Value → Option String
  | 0, _ => some "..."
  | fuel + 1, v =>
    match v with
    | .none => some "None"
    | .bool b => some (if b then "True" else "False")
    | .int n => decimal? n
    | .float x => some x.text
    | .nan _ => some "nan"
    | .text t _ => some (quoted t)
    | .range start stop => do
      let a ← decimal? start
      let b ← decimal? stop
      some ("range(" ++ a ++ ", " ++ b ++ ")")
    | .list r => do
      let parts ← (s.list r).mapM (writtenWithin s fuel)
      some ("[" ++ commaSeparated parts ++ "]")
    | .tuple r => do
      let parts ← (s.tuple r).mapM (writtenWithin s fuel)
      some (tupleText parts)
    | .dict r => do
      let parts ← (s.dict r).mapM fun e => do
        let label ← writtenWithin s fuel e.label
        let value ← writtenWithin s fuel e.value
        some (label ++ ": " ++ value)
      some ("\x7b" ++ commaSeparated parts ++ "\x7d")
    | .view kind r _ => do
      let parts ← (s.dict r).mapM fun e =>
        match kind with
        | .keys => writtenWithin s fuel e.label
        | .values => writtenWithin s fuel e.value
        | .pairs => do
          let label ← writtenWithin s fuel e.label
          let value ← writtenWithin s fuel e.value
          some (tupleText [label, value])
      some (v.typeName ++ "([" ++ commaSeparated parts ++ "])")
    | .object r => some (objectText (s.object r).name)
    | .function .. => some "<function>"

/-- A value as it is written inside another one. -/
def written? (s : Store) (v : Value) : Option String := s.writtenWithin s.depth v

/-- A value as it is shown. -/
def shown? (s : Store) (v : Value) : Option String :=
  match v with
  | .text t _ => some t
  | .object r => some ((s.object r).ownText.getD (objectText (s.object r).name))
  | v => s.written? v

/-- Does a value hold a function, with references followed at most `fuel` deep? -/
def holdsFunctionWithin (s : Store) : (fuel : Nat) → Value → Bool
  | 0, _ => false
  | fuel + 1, v =>
    match v with
    | .function .. => true
    | .list r => (s.list r).any (holdsFunctionWithin s fuel)
    | .tuple r => (s.tuple r).any (holdsFunctionWithin s fuel)
    | .view .keys r _ => (s.dict r).any fun e => holdsFunctionWithin s fuel e.label
    | .view .values r _ => (s.dict r).any fun e => holdsFunctionWithin s fuel e.value
    | .dict r | .view .pairs r _ =>
      (s.dict r).any fun e =>
        holdsFunctionWithin s fuel e.label || holdsFunctionWithin s fuel e.value
    | _ => false

/-- Does a value hold a function?  Functions have no name, so where one is written, an address
shows which one it is. -/
def holdsFunction (s : Store) (v : Value) : Bool := s.holdsFunctionWithin s.depth v

/-- A value as it is written, where a message needs some text in any case. -/
def written (s : Store) (v : Value) : String := (s.written? v).getD "..."

/-- A mapping as it is written. -/
def writtenDict? (s : Store) (d : Dict) : Option String := do
  let parts ← d.mapM fun e => do
    let label ← s.written? e.label
    let value ← s.written? e.value
    some (label ++ ": " ++ value)
  some ("\x7b" ++ commaSeparated parts ++ "\x7d")

end Store
end TextTemplate
