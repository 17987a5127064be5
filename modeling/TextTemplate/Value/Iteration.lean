/-
# Iteration and membership

A value is iterated over as a **stream**: items in order, and perhaps a failure behind them, since
an object of the caller may fail half way.  An object without an iteration of its own that can be
indexed is read at 0, 1, 2, … up to the first index out of range.

* `Eval.stream?` is the stream of a value, if it can be iterated over;
* `Eval.contains` is membership, `Store.length` the length and `Eval.pairOf` takes two items apart.
-/
import TextTemplate.Value.Access

namespace TextTemplate

/-! ## 1. Computations -/

/-- Look at the store. -/
def Eval.read {α : Type} (f : Store → Except Cause α) : Eval α := do
  match f (← get) with
  | .ok a => pure a
  | .error cause => Eval.fail cause

/-- Put a new container or object into the store. -/
def Eval.make {α : Type} (f : Store → α × Store) : Eval α := modifyGet f

/-- An answer, or nothing where it fails with an error of a kind that is let through. -/
def Eval.unless {α : Type} (passes : ErrorKind → Bool) (x : Eval α) : Eval (Option α) :=
  tryCatch (some <$> x) fun e => if passes e.kind then pure none else throw e

/-! ## 2. Streams -/

/-- Items in order; a failure may follow them. -/
structure Stream where
  items : List Value
  failure : Option Cause

/-- All items, if no failure follows them. -/
def Stream.all (st : Stream) : Except Cause (List Value) :=
  match st.failure with
  | none => .ok st.items
  | some cause => .error cause

/-- The integers of a range. -/
def rangeItems (start stop : Int) : List Value :=
  (List.range (rangeLength start stop)).map fun (i : Nat) => .int (start + i)

/-- The items of an object that is read at `index` and the following ones. -/
def Store.indexedItems (s : Store) (v : Value) : (fuel index : Nat) → Stream
  | 0, _ => ⟨[], none⟩
  | fuel + 1, index =>
    match s.item v (.int index) with
    | .ok found =>
      let rest := s.indexedItems v fuel (index + 1)
      ⟨found :: rest.items, rest.failure⟩
    | .error cause => if cause.kind = .badIndex then ⟨[], none⟩ else ⟨[], some cause⟩

/-- A new tuple for each entry of a mapping. -/
def Eval.pairTuples : Dict → Eval (List Value)
  | [] => pure []
  | e :: rest => do
    let pair ← Eval.make (·.newTuple [e.label, e.value])
    let pairs ← Eval.pairTuples rest
    pure (pair :: pairs)

/-- The stream of a value, with references followed at most `fuel` deep. -/
def Eval.streamWithin : (fuel : Nat) → Value → Eval (Option Stream)
  | 0, _ => pure none
  | fuel + 1, v => do
    let s ← get
    match v with
    | .text t _ => pure (some ⟨t.toList.map fun c => .plain (String.singleton c), none⟩)
    | .range start stop => pure (some ⟨rangeItems start stop, none⟩)
    | .list r => pure (some ⟨s.list r, none⟩)
    | .tuple r => pure (some ⟨s.tuple r, none⟩)
    | .dict r | .view .keys r _ => pure (some ⟨(s.dict r).map (·.label), none⟩)
    | .view .values r _ => pure (some ⟨(s.dict r).map (·.value), none⟩)
    | .view .pairs r _ => pure (some ⟨← Eval.pairTuples (s.dict r), none⟩)
    | .object r =>
      match (s.object r).iteration, (s.object r).items with
      | some inner, _ =>
        match ← Eval.streamWithin fuel inner with
        | some st => pure (some st)
        | none => pure (some ⟨[], some (.type (.notIterable inner.typeName))⟩)
      | none, some items => pure (some (s.indexedItems v (items.length + 1) 0))
      | none, none => pure none
    | _ => pure none

/-- The stream of a value, if it can be iterated over. -/
def Eval.stream? (v : Value) : Eval (Option Stream) := do Eval.streamWithin (← get).depth v

/-- All items of a value. -/
def Eval.items (v : Value) : Eval (List Value) := do
  match ← Eval.stream? v with
  | some st => Eval.read fun _ => st.all
  | none => Eval.fail (.type (.notIterable v.typeName))

/-- Take a value of two items apart. -/
def Eval.pairOf (v : Value) : Eval (Value × Value) := do
  match ← Eval.stream? v with
  | none => Eval.fail (.type (.notUnpackable v.typeName))
  | some ⟨_ :: _ :: _ :: _, _⟩ => Eval.fail (.value .tooManyToUnpack)
  | some ⟨_, some cause⟩ => Eval.fail cause
  | some ⟨[first, second], none⟩ => pure (first, second)
  | some ⟨items, none⟩ => Eval.fail (.value (.tooFewToUnpack items.length))

/-! ## 3. Membership -/

/-- Does a text occur in another? -/
def occursIn (part : List Char) : List Char → Bool
  | [] => part.isEmpty
  | c :: cs => part.isPrefixOf (c :: cs) || occursIn part cs

/-- Is one of the items the same as the value?  There is no answer where the search meets
something unhashable. -/
def Store.anySame? (s : Store) (v : Value) (items : List Value) : Option Bool :=
  items.anyM fun item => s.same? item v

/-- Is a number one of the integers of a range? -/
def rangeContains (start stop : Int) : Value → Bool
  | .bool b => start ≤ b.toNat ∧ (b.toNat : Int) < stop
  | .int n => start ≤ n ∧ n < stop
  | .float x =>
    match x.toInt? with
    | some n => start ≤ n ∧ n < stop
    | none => false
  | _ => false

/-- An answer about equality, which fails on something unhashable. -/
def Eval.decided (answer : Option Bool) (v : Value) : Eval Bool :=
  match answer with
  | some b => pure b
  | none => Eval.fail (.type (.unhashable v.typeName))

/-- Is a value in a container? -/
def Eval.contains (container v : Value) : Eval Bool := do
  let s ← get
  match container with
  | .text t _ =>
    match v with
    | .text part _ => pure (occursIn part.toList t.toList)
    | v => Eval.fail (.type (.notTextMember v.typeName))
  | .range start stop => pure (rangeContains start stop v)
  | .list r => Eval.decided (s.anySame? v (s.list r)) v
  | .tuple r => Eval.decided (s.anySame? v (s.tuple r)) v
  | .dict r =>
    match s.key? v with
    | .ok k => pure ((s.dict r).find? k).isSome
    | .error type => Eval.fail (.type (.unhashable type))
  | .view .values r _ => Eval.decided (s.anySame? v ((s.dict r).map (·.value))) v
  | .view kind r _ => Eval.decided (s.viewContains s.same? kind r (s.memberOf v)) v
  | .object _ =>
    match ← Eval.stream? container with
    | none => Eval.fail (.type (.noMembers container.typeName))
    | some st =>
      if ← Eval.decided ((← get).anySame? v st.items) v then pure true
      else
        match st.failure with
        | none => pure false
        | some cause => Eval.fail cause
  | container => Eval.fail (.type (.noMembers container.typeName))

/-! ## 4. Length -/

/-- The length of a value. -/
def Store.length (s : Store) (v : Value) : Except Cause Nat :=
  match v with
  | .text t _ => .ok t.length
  | .range start stop =>
    if isWord (rangeLength start stop) then .ok (rangeLength start stop) else .error .lengthTooLarge
  | .list r => .ok (s.list r).length
  | .tuple r => .ok (s.tuple r).length
  | .dict r | .view _ r _ => .ok (s.dict r).length
  | v => .error (.type (.noLength v.typeName))

end TextTemplate
