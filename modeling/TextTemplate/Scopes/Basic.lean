/-
# Scopes: the type

The names that a template sees are held in layers.  At the bottom lie the three constants, above
them the root layer, which is the caller's own mapping, and above it the layers pushed since.

* `Scopes` is the stack, and `Scopes.depth` its height with the constants counted;
* `Scopes.written?` writes all layers.
-/
import TextTemplate.Value.Written

namespace TextTemplate

/-- The layers of names.  The constants are not stored: they never change. -/
structure Scopes where
  /-- The root layer: a mapping of the caller, or any other value given in its place. -/
  root : Value
  /-- The layers pushed above it, the innermost first. -/
  pushed : List Dict
  deriving DecidableEq, Repr

namespace Scopes

/-- The constants that every template knows. -/
def constants : Dict :=
  Dict.ofBindings [("True", .bool true), ("False", .bool false), ("None", .none)]

/-- The number of layers, constants and root included. -/
def depth (c : Scopes) : Nat := c.pushed.length + 2

/-- All layers as they are written, the constants first. -/
def written? (s : Store) (c : Scopes) : Option String := do
  let constants ← s.writtenDict? constants
  let root ← s.written? c.root
  let pushed ← c.pushed.reverse.mapM s.writtenDict?
  some ("[" ++ commaSeparated (constants :: root :: pushed) ++ "]")

end Scopes
end TextTemplate
