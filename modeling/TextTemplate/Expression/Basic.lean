/-
# Expressions

An expression is an operand with filters behind it, separated by `|`; a filter may have an
argument after a colon.

* `Expression` is the type, `Expression.read` reads one;
* `Expression.references` are the names that it refers to, from left to right;
* `Expression.resolve` gives its value.  Filters are looked up by name only then.
-/
import TextTemplate.Expression.Filter
import TextTemplate.Expression.Operand

namespace TextTemplate

open TextTemplate.Text

/-- A filter in an expression: its name, and its argument if it has one. -/
structure Application where
  name : String
  argument : Option Operand
  deriving DecidableEq, Repr

/-- An expression and its text. -/
structure Expression where
  text : String
  base : Operand
  filters : List Application
  deriving DecidableEq, Repr

namespace Expression

/-! ## 1. Reading -/

/-- Read one filter with its argument.  A filter without a name does nothing. -/
def readApplication (cs : List Char) : Except Cause (Option Application) :=
  let (name, argument) := (before? [':'] cs).getD (cs, [])
  match plainName name with
  | [] => .ok none
  | name =>
    if strip argument = [] then .ok (some ⟨String.ofList name, none⟩)
    else do
      let operand ← Operand.read argument
      .ok (some ⟨String.ofList name, some operand⟩)

/-- Read an expression. -/
def read (cs : List Char) : Except Cause Expression := do
  let text := String.ofList cs
  match splitPipeline cs with
  | [] => .error (.template (.noVariableAtStart text))
  | base :: specs =>
    if strip base = [] then .error (.template (.noVariableAtStart text))
    else do
      let operand ← Operand.read base
      let applications ← specs.mapM readApplication
      .ok ⟨text, operand, applications.filterMap id⟩

/-! ## 2. Variables -/

/-- The names that an expression refers to, from left to right. -/
def references (e : Expression) : List String :=
  e.base.reference?.toList ++
    e.filters.flatMap fun a => (a.argument.bind Operand.reference?).toList

/-! ## 3. Resolving -/

/-- Apply one filter to a value. -/
def applyFilter (filters : Table Filter) (c : Scopes) (v : Value) (a : Application) : Eval Value :=
  match filters.find? a.name with
  | none => Eval.fail (.unknownFilter a.name)
  | some f => do
    let argument ← a.argument.mapM (·.resolveOrNone c)
    f.apply v argument

/-- The value of an expression. -/
def resolve (filters : Table Filter) (c : Scopes) (e : Expression) : Eval Value := do
  let v ← e.base.resolveOrNone c
  e.filters.foldlM (applyFilter filters c) v

end Expression
end TextTemplate
