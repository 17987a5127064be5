/-
# Filters

A filter is a function of a value and perhaps an argument.  Some filters work on texts only and
turn their value into a text first; some keep a safe text safe.

Whether a filter does so is said by flags that functions carry.  A filter that works on texts has
been made of another function, and then there are two of them: the filter asks the function that it
was made of when it is called, and an expression asks the filter's own function.

* `Filter` is the type and `Filter.call` calls one, with a check of the number of arguments;
* `Filter.forTexts` makes a function work on texts;
* `Filter.apply` is the call inside an expression, where a safe value may stay safe.
-/
import TextTemplate.Value.Call

namespace TextTemplate

/-! ## 1. Tables -/

/-- A table of names in the order in which they came. -/
abbrev Table (α : Type) := List (String × α)

namespace Table

variable {α : Type}

/-- What stands under a name. -/
def find? (t : Table α) (name : String) : Option α := t.lookup name

/-- Write under a name.  A name that is there keeps its place. -/
def insert (t : Table α) (name : String) (a : α) : Table α :=
  match t with
  | [] => [(name, a)]
  | e :: rest => if e.1 = name then (name, a) :: rest else e :: insert rest name a

/-- Write a whole table into another. -/
def merge (t u : Table α) : Table α := u.foldl (fun t e => t.insert e.1 e.2) t

@[simp] theorem find?_insert_self (t : Table α) (name : String) (a : α) :
    (t.insert name a).find? name = some a := by
  induction t with
  | nil => simp [insert, find?]
  | cons e rest ih =>
    obtain ⟨k, b⟩ := e
    by_cases h : k = name
    · simp [insert, find?, h]
    · have hne : (name == k) = false := beq_false_of_ne (Ne.symm h)
      simpa [insert, find?, h, List.lookup_cons, hne] using ih

end Table

/-! ## 2. Filters -/

/-- The function that a filter on texts was made of: the number that tells it from others of its
name, and the flag that it carries. -/
structure InnerFunction where
  number : Nat
  safeFlag : Option Value
  deriving DecidableEq, Repr

/-- A filter. -/
structure Filter where
  /-- The name of its function, as messages give it. -/
  name : String
  /-- Tells its function from others of this name. -/
  number : Nat
  /-- Its parameters, the value first. -/
  parameters : List String
  /-- The number of parameters that may be left out. -/
  optional : Nat
  /-- The function that it was made of, if it turns its value into a text first. -/
  inner : Option InnerFunction
  /-- The flag by which it keeps safe texts safe, as its function carries it. -/
  safeFlag : Option Value
  /-- What it does to its arguments; there are as many as the parameters allow. -/
  body : List Value → Eval Value

namespace Filter

/-- Does the filter turn its value into a text first? -/
def onText (f : Filter) : Bool := f.inner.isSome

/-- The function, made to work on texts: a further function of the same name, which starts with
the flag that the function carries now.  Where the function was made of another one itself, that
one stays the inner one. -/
def forTexts (f : Filter) (number : Nat) : Filter :=
  { f with number := number, inner := some (f.inner.getD ⟨f.number, f.safeFlag⟩) }

/-- Does the filter keep safe texts safe, by the flag of its own function? -/
def keepsSafe (f : Filter) (s : Store) : Bool := f.safeFlag.any s.truth

/-- Does it do so by the flag of the function that it was made of? -/
def innerKeepsSafe (f : Filter) (s : Store) : Bool := (f.inner.bind (·.safeFlag)).any s.truth

/-- Call the filter's function, after a check of the number of arguments. -/
def callBody (f : Filter) (arguments : List Value) : Eval Value :=
  let least := f.parameters.length - f.optional
  if f.parameters.length < arguments.length then
    Eval.fail (.type (.extraArguments f.name least f.parameters.length arguments.length))
  else if arguments.length < least then
    Eval.fail (.type (.missingArguments f.name ((f.parameters.take least).drop arguments.length)))
  else f.body arguments

/-- The text that a filter on texts gets for a value; there is nothing to show of nothing. -/
def argumentText (v : Value) : Eval Value :=
  match v with
  | .none => pure (.plain "")
  | .text t safe => pure (.text t safe)
  | v => do pure (.plain (← Eval.text v))

/-- Is the value a safe text? -/
def isSafe : Value → Bool
  | .text _ safe => safe
  | _ => false

/-- Call a filter. -/
def call (f : Filter) (arguments : List Value) : Eval Value := do
  if f.onText then
    match arguments with
    | [] => Eval.fail (.index .list)
    | v :: rest => do
      let text ← argumentText v
      let result ← f.callBody (text :: rest)
      if isSafe text && f.innerKeepsSafe (← get) then Eval.markSafe result else pure result
  else f.callBody arguments

/-- Apply a filter inside an expression: the result of a filter that keeps safe texts safe is
safe when its value was. -/
def apply (f : Filter) (v : Value) (argument : Option Value) : Eval Value := do
  let result ← f.call (v :: argument.toList)
  if f.keepsSafe (← get) && isSafe v then Eval.markSafe result else pure result

end Filter
end TextTemplate
