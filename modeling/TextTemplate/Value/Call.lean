/-
# Calls

Templates call what they find: a method of an object runs the caller's code, a method of plain
data may read its value or change it in place.

* `Eval.callData` runs a method of plain data;
* `Eval.call` calls a member or a value;
* `Eval.settle` is the value that a lookup goes on with: callable things are called, others stay.
-/
import TextTemplate.Sorting.Runs
import TextTemplate.Text.Case
import TextTemplate.Text.Markup
import TextTemplate.Value.Arithmetic
import TextTemplate.Value.Order

namespace TextTemplate

open TextTemplate.Text

/-! ## 1. Safe text -/

/-- The text of a value in the output. -/
def Eval.text (v : Value) : Eval String :=
  Eval.read fun s =>
    match s.shown? v with
    | some t => .ok t
    | none => .error (.value .integerTextTooLong)

/-- The attribute by which a value says that it is markup already. -/
def markupAttribute : String := "__html__"

/-- Is the value markup already? -/
def Store.isMarkup (s : Store) (v : Value) : Except Cause Bool :=
  match v with
  | .text _ safe => .ok safe
  | v => s.hasAttribute v markupAttribute

/-- Mark a value as safe.  What is markup already stays as it is, a callable object becomes a
function with safe results, anything else becomes a safe text. -/
def Eval.markSafe (v : Value) : Eval Value := do
  if ← Eval.read (·.isMarkup v) then pure v
  else
    match v with
    | .function of _ => do
      let i ← Eval.make (·.newIdentity)
      pure (.function of i)
    | .object r =>
      if (← get).isCallable v then do
        let i ← Eval.make (·.newIdentity)
        pure (.function r i)
      else do pure (.markup (← Eval.text v))
    | v => do pure (.markup (← Eval.text v))

/-! ## 2. Methods of plain data -/

/-- The number of binary digits of an integer. -/
def bitLength (n : Int) : Nat := if n = 0 then 0 else n.natAbs.log2 + 1

/-- Run a method of plain data.  A method that needs an argument is refused. -/
def Eval.callData (v : Value) (m : DataMethod) : Eval Value := do
  let s ← get
  match m, v with
  | .upper, .text t _ => pure (.plain (String.ofList (upper t.toList)))
  | .lower, .text t _ => pure (.plain (String.ofList (lower t.toList)))
  | .title, .text t _ => pure (.plain (String.ofList (title t.toList)))
  | .strip, .text t _ => pure (.plain (String.ofList (strip t.toList)))
  | .stripLeft, .text t _ => pure (.plain (String.ofList (stripLeft t.toList)))
  | .stripRight, .text t _ => pure (.plain (String.ofList (stripRight t.toList)))
  | .split, .text t _ =>
    Eval.make (·.newList ((words t.toList).map fun w => .plain (String.ofList w)))
  | .pairs, .dict r => do
    let i ← Eval.make (·.newIdentity)
    pure (.view .pairs r i)
  | .keys, .dict r => do
    let i ← Eval.make (·.newIdentity)
    pure (.view .keys r i)
  | .values, .dict r => do
    let i ← Eval.make (·.newIdentity)
    pure (.view .values r i)
  | .popPair, .dict r =>
    match (s.dict r).getLast? with
    | none => Eval.fail .emptyMapping
    | some e => do
      set (s.setDict r (s.dict r).dropLast)
      Eval.make (·.newTuple [e.label, e.value])
  | .copyEntries, .dict r => Eval.make (·.newDict (s.dict r))
  | .clearEntries, .dict r => do
    set (s.setDict r [])
    pure .none
  | .update, .dict _ => pure .none
  | .copy, .list r => Eval.make (·.newList (s.list r))
  | .popLast, .list r =>
    match (s.list r).getLast? with
    | none => Eval.fail (.index .emptyList)
    | some last => do
      set (s.setList r (s.list r).dropLast)
      pure last
  | .sort, .list r => do
    let (items, fault) := Sorting.sortItems (s.related .less) (s.list r)
    set (s.setList r items)
    if fault.isNone then pure .none else Eval.fail .dataMethod
  | .reverse, .list r => do
    set (s.setList r (s.list r).reverse)
    pure .none
  | .clear, .list r => do
    set (s.setList r [])
    pure .none
  | .bitLength, .int n => pure (.int (bitLength n))
  | .bitLength, .bool b => pure (.int (bitLength b.toNat))
  | .conjugate, .int n => pure (.int n)
  | .conjugate, .bool b => pure (.int b.toNat)
  | .conjugate, .float x => pure (.float x)
  | .conjugate, .nan i => pure (.nan i)
  | .isInteger, .float x => pure (.bool x.toInt?.isSome)
  | .isInteger, .nan _ => pure (.bool false)
  | _, _ => Eval.fail .dataMethod

/-! ## 3. Calls -/

/-- Call a value. -/
def Eval.callValue (v : Value) : Eval Value := do
  let s ← get
  match v with
  | .object r =>
    match (s.object r).call with
    | some outcome => Eval.read fun _ => outcome.run
    | none => Eval.fail (.type (.notCallable v.typeName))
  | .function of _ =>
    match (s.object of).call with
    | some outcome => do Eval.markSafe (← Eval.read fun _ => outcome.run)
    | none => Eval.fail (.type (.notCallable v.typeName))
  | v => Eval.fail (.type (.notCallable v.typeName))

/-- Call a member. -/
def Eval.call (m : Member) : Eval Value :=
  match m with
  | .value v => Eval.callValue v
  | .method object m =>
    if m.needsArgument then
      Eval.fail (.type (.missingArguments (object ++ "." ++ m.name) ["x"]))
    else Eval.read fun _ => m.outcome.run
  | .data v m => Eval.callData v m

/-- A method of an object, as it is written. -/
def methodText (object method : String) : String :=
  "<bound method " ++ object ++ "." ++ method ++ " of " ++ objectText object ++ ">"

/-- Does calling an object fail for a reason that looks like a wrong argument? -/
def Outcome.failsOnType : Outcome → Bool
  | .raises kind argument => (Cause.raising kind argument).kind = .mistyped
  | .returns _ => false

/-- Does a value ask not to be called by a template? -/
def Eval.declinesCall (v : Value) : Eval Bool := do
  match (← get).attribute? v noCallAttribute with
  | some (.ok (.value v)) => pure ((← get).truth v)
  | some (.ok _) => pure true
  | some (.error cause) => if cause.kind = .missingAttribute then pure false else Eval.fail cause
  | none => pure false

/-- The attribute that gives a callable thing a name. -/
def nameAttribute : String := "__name__"

/-- The failure of a lookup where a call fails for a reason that looks like a wrong argument.  What
is called has to tell its name then. -/
def Eval.refuseCall (v : Value) : Eval Value := do
  let s ← get
  match s.attribute? v nameAttribute with
  | none => Eval.fail (.noAttribute v.typeName nameAttribute)
  | some (.ok _) => Eval.fail (.needsArgument (s.written v))
  | some (.error cause) =>
    if cause.kind = .mistyped then Eval.fail (.needsArgument (s.written v)) else Eval.fail cause

/-- The value that a lookup goes on with.  Callable things are called, unless they ask not to be;
a method that would need an argument does not exist for a template. -/
def Eval.settle (m : Member) : Eval Value := do
  match m with
  | .value (.object r) =>
    match ((← get).object r).call with
    | none => pure (.object r)
    | some outcome =>
      if ← Eval.declinesCall (.object r) then pure (.object r)
      else if outcome.failsOnType then Eval.refuseCall (.object r)
      else Eval.read fun _ => outcome.run
  | .value (.function of i) =>
    if ← Eval.declinesCall (.function of i) then pure (.function of i)
    else Eval.callValue (.function of i)
  | .value v => pure v
  | .method object m =>
    if m.needsArgument then Eval.fail (.needsArgument (methodText object m.name))
    else Eval.read fun _ => m.outcome.run
  | .data v m => Eval.callData v m

/-! ## 4. Escaping -/

/-- The text of a value as markup. -/
def Eval.escaped (v : Value) : Eval Value := do pure (.markup (escapeMarkup (← Eval.text v)))

/-- A value as markup: markup stays, an object may give its own, anything else is escaped. -/
def Eval.asMarkup (v : Value) : Eval Value := do
  match v with
  | .text t true => pure (.markup t)
  | v =>
    if ← Eval.read (·.hasAttribute v markupAttribute) then
      match (← get).attribute? v markupAttribute with
      | some (.ok member) => Eval.call member
      | some (.error cause) => Eval.fail cause
      | none => Eval.escaped v
    else Eval.escaped v

end TextTemplate
