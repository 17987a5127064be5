/-
# Further filters

Filters for trying an engine out: they show what a value is, take it apart, or fail on purpose.

* `Filter.extras` is the table of all of them;
* `Filter.tagged` is a filter that writes its value behind a name.
-/
import TextTemplate.Expression.Filter
import TextTemplate.Standard.Filters

namespace TextTemplate

namespace Filter

/-- A text around the text of the value. -/
def around (before after : String) : List Value → Eval Value
  | v :: _ => do pure (.plain (before ++ (← Eval.text v) ++ after))
  | [] => pure .none

/-- The item of the value at the argument. -/
def atBody : List Value → Eval Value
  | [v, key] => Eval.read (·.item v key)
  | _ => pure .none

/-- An error of a kind about a value.  Nothing is no argument. -/
def failureOf (kind : ErrorKind) (v : Value) : Cause :=
  .raising kind (if v = .none then none else some v)

/-- Fail with an error of the kind that the argument names; `kindOf` are the kinds by name. -/
def failBody (kindOf : String → ErrorKind) : List Value → Eval Value
  | [v] => Eval.fail (failureOf .badValue v)
  | v :: kind :: _ => do Eval.fail (failureOf (kindOf (← Eval.text kind)) v)
  | [] => pure .none

/-- The value as it is. -/
def keepBody : List Value → Eval Value
  | v :: _ => pure v
  | [] => pure .none

/-- The value twice. -/
def pairBody : List Value → Eval Value
  | v :: _ => Eval.make (·.newList [v, v])
  | [] => pure .none

/-- The name of the value's type. -/
def kindBody : List Value → Eval Value
  | v :: _ => pure (.plain v.typeName)
  | [] => pure .none

/-- The value as it is written. -/
def writtenBody : List Value → Eval Value
  | v :: _ =>
    Eval.read fun s =>
      match s.written? v with
      | some t => .ok (.plain t)
      | none => .error (.value .integerTextTooLong)
  | [] => pure .none

/-- A filter without a flag. -/
def unflagged (name : String) (parameters : List String) (optional : Nat)
    (body : List Value → Eval Value) : Filter :=
  ⟨name, 0, parameters, optional, none, none, body⟩

/-- The further filters by name; `kindOf` are the kinds of errors by name. -/
def extras (kindOf : String → ErrorKind) : Table Filter :=
  [("shout", unflagged "shout" alone 0 (around "" "!")),
    ("at", unflagged "at" withArgument 0 atBody),
    ("boom", unflagged "boom" withArgument 1 (failBody kindOf)),
    ("keep", any "keep" alone true keepBody),
    ("wrap", any "wrap" alone true (around "<" ">")),
    ("pair", unflagged "pair" alone 0 pairBody),
    ("kind", unflagged "kind" alone 0 kindBody),
    ("repr", unflagged "repr" alone 0 writtenBody)]

/-- The text that a named function makes of its value. -/
def taggedText (name value : String) : String := "<" ++ name ++ ":" ++ value ++ ">"

/-- A filter that writes its value behind its own name.  Its functions are none of those that the
tables hold, which are numbered 0 and 1. -/
def tagged (name : String) (onText : Bool) : Filter :=
  let f := { unflagged name withArgument 1 (around ("<" ++ name ++ ":") ">") with number := 2 }
  if onText then f.forTexts 3 else f

end Filter
end TextTemplate
