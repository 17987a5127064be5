/-
# Scopes: looking up and writing

A name is looked up from the innermost layer outwards; the constants come last.  Names are written
in the innermost layer, or in the root layer, where they outlive the layers above it.  The root is
a value of the caller: where it is no mapping, it is asked like any other container.

* `Scopes.lookup` finds a name, `Scopes.write` and `Scopes.writeRoot` bind one;
* `Scopes.push`, `Scopes.pop?` and `Scopes.unwind` change the layers above the root.
-/
import TextTemplate.Scopes.Basic
import TextTemplate.Value.Iteration

namespace TextTemplate

/-! ## 1. Layers -/

namespace Scopes

/-- Only the root layer above the constants. -/
def ofRoot (root : Value) : Scopes := ⟨root, []⟩

/-- A new innermost layer. -/
def push (c : Scopes) (layer : Dict) : Scopes := { c with pushed := layer :: c.pushed }

/-- The innermost layer and the rest; the root layer is never taken away. -/
def pop? (c : Scopes) : Option (Dict × Scopes) :=
  match c.pushed with
  | [] => none
  | layer :: rest => some (layer, { c with pushed := rest })

/-- Drop every layer above a depth.  The constants and the root stay. -/
def unwind (c : Scopes) (depth : Nat) : Scopes :=
  { c with pushed := c.pushed.drop (c.pushed.length - (max depth 2 - 2)) }

/-- What the pushed layers hold at a key, the innermost first. -/
def findPushed? (c : Scopes) (k : Key) : Option Value := c.pushed.findSome? (·.find? k)

@[simp] theorem depth_push (c : Scopes) (layer : Dict) : (c.push layer).depth = c.depth + 1 := rfl

/-- What has been pushed is what is taken away. -/
@[simp] theorem pop?_push (c : Scopes) (layer : Dict) : (c.push layer).pop? = some (layer, c) := rfl

/-- **Unwinding to the depth before a push undoes the push.** -/
@[simp] theorem unwind_push (c : Scopes) (layer : Dict) : (c.push layer).unwind c.depth = c := by
  simp [push, unwind, depth]

/-! ## 2. Looking up -/

/-- What a name stands for. -/
def lookup (c : Scopes) (name : Value) : Eval Value := do
  let key := (← get).key? name
  match key.toOption.bind c.findPushed? with
  | some v => pure v
  | none =>
    match key, c.pushed with
    | .error type, _ :: _ => Eval.fail (.type (.unhashable type))
    | key, _ =>
      if ← Eval.contains c.root name then Eval.read (·.item c.root name)
      else
        match key with
        | .error type => Eval.fail (.type (.unhashable type))
        | .ok k =>
          match constants.find? k with
          | some v => pure v
          | none => Eval.fail (.missingKey name)

/-- What a name stands for, or another value if it stands for nothing. -/
def lookupOr (c : Scopes) (name otherwise : Value) : Eval Value :=
  tryCatch (c.lookup name) fun e => if e.kind = .missingKey then pure otherwise else throw e

end Scopes

/-! ## 3. Writing -/

/-- Write an item of a value. -/
def Eval.setItem (v key value : Value) : Eval Unit := do
  let s ← get
  match v with
  | .dict r =>
    match s.key? key with
    | .ok k => set (s.setDict r ((s.dict r).insert k key value))
    | .error type => Eval.fail (.type (.unhashable type))
  | .list r =>
    match key.index? with
    | none => Eval.fail (.type (.listIndex "list" key.typeName))
    | some n => do
      let i ← Eval.read fun s => wordPosition .assignment n (s.list r).length
      set (s.setList r ((s.list r).set i value))
  | v => Eval.fail (.type (.notAssignable v.typeName))

namespace Scopes

/-- Bind a name in the root layer. -/
def writeRoot (c : Scopes) (name value : Value) : Eval Unit := Eval.setItem c.root name value

/-- Bind a name in the innermost layer. -/
def write (c : Scopes) (name value : Value) : Eval Scopes := do
  match c.pushed with
  | [] => do
    c.writeRoot name value
    pure c
  | layer :: rest =>
    match (← get).key? name with
    | .ok k => pure { c with pushed := layer.insert k name value :: rest }
    | .error type => Eval.fail (.type (.unhashable type))

end Scopes
end TextTemplate
