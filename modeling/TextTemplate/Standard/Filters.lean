/-
# The standard filters

Case, arithmetic, membership, escaping and sequences.  A filter that cannot do its work on a value
mostly gives an empty text, `False` or 0 instead of failing.

* `Filter.standard` is the table of all of them;
* each filter's body stands in a definition of its own.
-/
import TextTemplate.Expression.Filter
import TextTemplate.Text.Case

namespace TextTemplate

open TextTemplate.Decimal TextTemplate.Text

namespace Filter

/-! ## 1. Texts -/

/-- A function of the characters of a text.  The result is a plain text. -/
def onChars (f : List Char → List Char) : List Value → Eval Value
  | .text t _ :: _ => pure (.plain (String.ofList (f t.toList)))
  | _ => pure (.plain "")

/-- The text with its first character in upper case. -/
def capitalize : List Char → List Char
  | [] => []
  | c :: cs => upper [c] ++ cs

/-- The first character in upper case.  An empty text stays as it is. -/
def capfirstBody : List Value → Eval Value
  | .text "" safe :: _ => pure (.text "" safe)
  | arguments => onChars capitalize arguments

/-- The text as markup, even when it is markup already. -/
def escapeBody : List Value → Eval Value
  | .text t _ :: _ => pure (.markup (escapeMarkup t))
  | _ => pure (.markup "")

/-- The text escaped for a script. -/
def escapeScriptBody : List Value → Eval Value
  | .text t _ :: _ => pure (.markup (escapeScript t))
  | _ => pure (.markup "")

/-! ## 2. Numbers -/

/-- Is the error one of a type or a value that does not fit? -/
def isMisfit (kind : ErrorKind) : Bool := kind = .badValue ∨ kind = .mistyped

/-- The sum: of integers, if both values can be read as integers, and otherwise of the values as
they are.  There is an empty text where neither works. -/
def addBody : List Value → Eval Value
  | [v, w] => do
    let sum : Eval Value := Eval.read fun _ => do
      let m ← v.toInteger
      let n ← w.toInteger
      .ok (.int (m + n))
    match ← Eval.unless isMisfit sum with
    | some v => pure v
    | none => do pure ((← Eval.unless (fun _ => true) (Eval.plus v w)).getD (.plain ""))
  | _ => pure .none

/-- The difference of two values that are read as numbers, or an empty text. -/
def subtractBody : List Value → Eval Value
  | [v, w] => do pure ((← Eval.unless isMisfit (Eval.minus v w)).getD (.plain ""))
  | _ => pure .none

/-- Is the value a multiple of the argument?  Nothing is a multiple of zero. -/
def divisiblebyBody : List Value → Eval Value
  | [v, w] => do
    let divides : Eval Bool := Eval.read fun _ => do
      let m ← v.toInteger
      let n ← w.toInteger
      .ok (n ≠ 0 ∧ m % n = 0)
    pure (.bool ((← Eval.unless isMisfit divides).getD false))
  | _ => pure .none

/-- The first form for every count but 1, and the second form for 1. -/
def pluralizeBody (arguments : List Value) : Eval Value := do
  let count := arguments.headD .none
  let forms ← Eval.text (arguments.tail.headD (.plain "s,"))
  let forms := splitAt ',' forms.toList
  let plural := Value.plain (String.ofList (forms.headD []))
  let singular := Value.plain (String.ofList (forms.tail.headD []))
  match ← Eval.unless isMisfit (Eval.read fun _ => count.toFloat) with
  | some (some x) => pure (if x.orderInt 1 = .eq then singular else plural)
  | _ => pure plural

/-! ## 3. Containers -/

/-- Is the argument in the value? -/
def containsBody : List Value → Eval Value
  | [v, w] => do pure (.bool ((← Eval.unless (· == .mistyped) (Eval.contains v w)).getD false))
  | _ => pure .none

/-- The item at an index, or an empty text. -/
def itemBody (index : Int) : List Value → Eval Value
  | [v] => do
    let fails (kind : ErrorKind) : Bool := kind ∈ [.badIndex, .missingKey, .mistyped]
    pure ((← Eval.unless fails (Eval.read (·.item v (.int index)))).getD (.plain ""))
  | _ => pure .none

/-- The texts of a stream's items. -/
def streamTexts (st : Stream) : Eval (List String) := do
  let texts ← st.items.mapM Eval.text
  match st.failure with
  | none => pure texts
  | some cause => Eval.fail cause

/-- The texts of the items with the argument between them.  What cannot be iterated over stays as
it is. -/
def joinBody : List Value → Eval Value
  | [v, w] => do
    let joined : Eval Value := do
      let between ← Eval.text w
      match ← Eval.stream? v with
      | none => Eval.fail (.type (.notIterable v.typeName))
      | some st => do pure (.plain (between.intercalate (← streamTexts st)))
    pure ((← Eval.unless (· == .mistyped) joined).getD v)
  | _ => pure .none

/-- The length, or 0. -/
def lengthBody : List Value → Eval Value
  | [v] => do
    let n ← Eval.unless isMisfit (Eval.read (·.length v))
    pure (.int (n.getD 0))
  | _ => pure .none

/-! ## 4. Others -/

/-- Mark the value as safe; nothing becomes an empty text. -/
def safeBody : List Value → Eval Value
  | [v] => Eval.markSafe (if v = .none then .plain "" else v)
  | _ => pure .none

/-- The value if it counts as true, and else the argument. -/
def defaultBody : List Value → Eval Value
  | [v, w] => do pure (if (← get).truth v then v else w)
  | _ => pure .none

/-! ## 5. The table -/

/-- The parameter of a filter without an argument. -/
def alone : List String := ["value"]

/-- The parameters of a filter with an argument. -/
def withArgument : List String := ["value", "arg"]

/-- A filter on any value. -/
def any (name : String) (parameters : List String) (safe : Bool) (body : List Value → Eval Value) :
    Filter :=
  ⟨name, 0, parameters, 0, none, some (.bool safe), body⟩

/-- A filter on texts. -/
def text (name : String) (safe : Bool) (body : List Value → Eval Value) : Filter :=
  (any name alone safe body).forTexts 1

/-- The standard filters by name. -/
def standard : Table Filter :=
  [("upper", text "upper" false (onChars upper)),
    ("lower", text "lower" false (onChars lower)),
    ("capfirst", text "capfirst" true capfirstBody),
    ("title", text "title" true (onChars title)),
    ("add", any "add" withArgument false addBody),
    ("subtract", any "subtract" withArgument false subtractBody),
    ("divisibleby", any "divisibleby" withArgument false divisiblebyBody),
    ("contains", any "contains" withArgument false containsBody),
    ("safe", any "safe" alone true safeBody),
    ("escape", text "escape_filter" true escapeBody),
    ("escapejs", text "escapejs" false escapeScriptBody),
    ("first", any "first" alone false (itemBody 0)),
    ("last", any "last" alone false (itemBody (-1))),
    ("join", any "join" withArgument true joinBody),
    ("length", any "length" alone false lengthBody),
    ("default", any "default" withArgument false defaultBody),
    ("pluralize", { any "pluralize" withArgument false pluralizeBody with optional := 1 })]

end Filter
end TextTemplate
