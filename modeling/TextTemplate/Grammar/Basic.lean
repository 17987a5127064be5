/-
# Grammars and libraries

A grammar is what a template is compiled with: tags, filters and delimiters.  Tags and filters come
from libraries.

A function that is registered as a filter carries its flag itself: registering it once more, under
another name or in another library, changes the flag for every name.  The flag of a filter on texts
is carried by the function that it was made of, too, and so by all filters that were made of it.

* `Library` is a library; `Library.registerTag` and `Library.registerFilter` extend one;
* `Grammar` is a grammar; `Grammar.withLibrary` adds a library to one, and `Grammar.clone` replaces
  whole parts of it.
-/
import TextTemplate.Compilation
import TextTemplate.Grammar.Segment
import TextTemplate.Standard.Filters
import TextTemplate.Standard.Tags

namespace TextTemplate

open TextTemplate.Decimal

/-! ## 1. Libraries -/

/-- A library of tags and filters. -/
structure Library where
  tags : Table Tag
  filters : Table Filter

/-- How a function is handed to a library: with its name, with no name, by a name that comes first,
by a named name, by itself, or wrongly with a name that is missing. -/
inductive RegistrationForm where
  | direct
  | empty
  | named
  | keyword
  | bare
  | nameless
  deriving DecidableEq, Repr

/-- The name under which a function is registered: the given one, or else that of the function. -/
def RegistrationForm.registeredName (form : RegistrationForm) (given : Option String)
    (function : String) : Except Cause String :=
  match form, given with
  | .nameless, _ | .direct, none => .error .registration
  | .empty, _ | .bare, _ => .ok function
  | .direct, some name => .ok name
  | .named, given | .keyword, given => .ok (given.getD function)

/-- A function: its name, and the number that tells it from others of this name. -/
structure FunctionId where
  name : String
  number : Nat
  deriving DecidableEq, Repr

namespace Filter

/-- The filter's own function. -/
def function (f : Filter) : FunctionId := ⟨f.name, f.number⟩

/-- The function that the filter was made of. -/
def innerFunction? (f : Filter) : Option FunctionId := f.inner.map fun g => ⟨f.name, g.number⟩

/-- The functions that carry the flag of the filter. -/
def functions (f : Filter) : List FunctionId := f.function :: f.innerFunction?.toList

end Filter

/-- The flags that functions have been given, the latest first. -/
abbrev Flags := List (FunctionId × Value)

/-- Give a flag to the functions of a filter. -/
def Flags.give (flags : Flags) (f : Filter) (flag : Value) : Flags :=
  f.functions.map (·, flag) ++ flags

/-- A filter with the flags that its functions carry now.  A function to which none has been given
carries the one that it was made with. -/
def Filter.flagged (f : Filter) (flags : Flags) : Filter :=
  { f with
    safeFlag := (flags.lookup f.function).or f.safeFlag
    inner := f.inner.map fun g =>
      { g with safeFlag := (flags.lookup ⟨f.name, g.number⟩).or g.safeFlag } }

/-- The filters of a table with the flags that their functions carry now. -/
def Flags.onTable (flags : Flags) (filters : Table Filter) : Table Filter :=
  filters.map fun e => (e.1, e.2.flagged flags)

namespace Library

/-- A library that holds nothing. -/
def empty : Library := ⟨[], []⟩

/-- The standard tags. -/
def standardTags : Library := ⟨Tag.standard, []⟩

/-- The standard filters. -/
def standardFilters : Library := ⟨[], Filter.standard⟩

/-- Register a tag. -/
def registerTag (lib : Library) (form : RegistrationForm) (given : Option String) (tag : Tag) :
    Except Cause Library := do
  let name ← form.registeredName given tag.name
  .ok { lib with tags := lib.tags.insert name tag }

/-- Register a filter.  A flag that is given becomes the flag of the filter's functions. -/
def registerFilter (lib : Library) (flags : Flags) (form : RegistrationForm)
    (given : Option String) (f : Filter) (flag : Option Value) :
    Except Cause (Library × Flags) := do
  let name ← form.registeredName given f.name
  let flags := match flag with
    | some v => flags.give f v
    | none => flags
  .ok ({ lib with filters := lib.filters.insert name f }, flags)

/-- The library with the flags that its functions carry now. -/
def flagged (lib : Library) (flags : Flags) : Library :=
  { lib with filters := flags.onTable lib.filters }

end Library

/-! ## 2. Grammars -/

/-- What a template is compiled with. -/
structure Grammar where
  tags : Table Tag
  filters : Table Filter
  delimiters : Delimiters

/-- Whole parts of a grammar that a template replaces. -/
structure Overrides where
  tags : Option (Table Tag)
  filters : Option (Table Filter)
  /-- A choice of delimiters, or nothing. -/
  delimiters : Value

/-- Nothing is replaced. -/
def Overrides.empty : Overrides := ⟨none, none, .none⟩

namespace Grammar

/-- A grammar as it is shown. -/
def written (g : Grammar) : String :=
  "<Grammar: " ++ decimalNat g.tags.length ++ " tags, " ++ decimalNat g.filters.length ++
    " filters, delimiters=" ++ g.delimiters.written ++ ">"

/-- A choice of delimiters; nothing stands for those given as usual. -/
def chooseDelimiters (usual : Delimiters) (v : Value) : Eval Delimiters :=
  match v with
  | .none => pure usual
  | v => Delimiters.ofValue v

/-- A grammar without tags and filters. -/
def ofDelimiters (v : Value) : Eval Grammar := do
  pure ⟨[], [], ← chooseDelimiters Delimiters.standard v⟩

/-- Add the tags and filters of a library; they replace those of the same names. -/
def withLibrary (g : Grammar) (lib : Library) : Grammar :=
  { g with tags := g.tags.merge lib.tags, filters := g.filters.merge lib.filters }

/-- A copy of a grammar with whole parts replaced. -/
def clone (g : Grammar) (o : Overrides) : Eval Grammar := do
  pure ⟨o.tags.getD g.tags, o.filters.getD g.filters, ← chooseDelimiters g.delimiters o.delimiters⟩

/-- The grammar of the standard tags and filters with the usual delimiters. -/
def standard : Grammar := ⟨Tag.standard, Filter.standard, Delimiters.standard⟩

end Grammar
end TextTemplate
