/-
# Direct evaluation of a tree

What a template means, said without a program: a conditional evaluates its conditions in order up
to the first that holds and renders that body alone; a loop evaluates its sequence once and renders
its body once per item, in a layer of its own; an empty part is rendered when there were no items;
a comment is passed over.  There are no jumps, no running loops and no flags.

* `Tree.render` renders a tree inside a run, `Tree.run` is the whole outcome;
* `Tree.render_local` says that the evaluation leaves the running loops and the flags alone, and
  as many layers as it found.
-/
import TextTemplate.Proofs.Run.Frames
import TextTemplate.Proofs.Tree.Basic

namespace TextTemplate

open TextTemplate.Text

/-! ## 1. Parts of the evaluation -/

namespace Run

/-- Add an empty layer of names. -/
def pushLayer : Run Unit := do setScopes ((← scopes).push [])

/-- Take the innermost layer away. -/
def dropLayer : Run Unit := do
  let c ← scopes
  setScopes { c with pushed := c.pushed.tail }

/-- A computation in a layer of its own. -/
def inLayer {α : Type} (x : Run α) : Run α := do
  pushLayer
  let a ← x
  dropLayer
  pure a

/-- Does a condition of the source hold? -/
def holds (env : Environment) (c : Condition) : Run Bool := do
  let scopes ← Run.scopes
  eval (c.holds env.filters scopes [])

/-- Evaluate the condition of a token, and go on in one way or the other. -/
def choose (env : Environment) (t : Token) (c : Condition) (x y : Run Unit) : Run Unit := do
  let b ← located env t (holds env c)
  if b then x else y

/-- Write the value of an expression. -/
def writeExpression (env : Environment) (e : Expression) : Run Unit := do
  let c ← scopes
  let v ← eval do Eval.output env.autoescape (← e.resolve env.filters c)
  write v

/-- Bind a name in the root layer. -/
def assign (name : String) (v : Value) : Run Unit := do
  let c ← scopes
  eval (c.writeRoot (.plain name) v)

/-- The items of a loop over an expression. -/
def loopItems (env : Environment) (e : Expression) : Run (List LoopItem) := do
  let c ← scopes
  eval do Eval.loopItems (← e.resolve env.filters c)

/-- Run a body once per item.  Binding fails at one token for the first item, and at another for
the following ones. -/
def rounds (env : Environment) (names : List String) (body : Run Unit) (later : Token) :
    (now : Token) → List LoopItem → Run Unit
  | _, [] => pure ()
  | now, item :: rest => do
    located env now (bindItem names item)
    body
    rounds env names body later later rest

end Run

/-! ## 2. Trees -/

/-- Render a leaf. -/
def Leaf.render (env : Environment) : Leaf → Run Unit
  | nothing => pure ()
  | text s => Run.write (.plain s)
  | expression e => Run.writeExpression env e
  | cycle values counter => Run.cycle env values counter
  | serial name number => Run.assign name (.int number)

/-- The token at which the body of a loop ends. -/
def EmptyParts.endOfBody (closing : Token) : EmptyParts → Token
  | none => closing
  | part t .. => t

mutual

/-- Render a tree. -/
def Tree.render (env : Environment) : Tree → Run Unit
  | .nil => pure ()
  | .leaf t l next => do
    Run.located env t (l.render env)
    next.render env
  | .conditional t c body chain _ next => do
    Run.choose env t c (body.render env) (chain.render env)
    next.render env
  | .loop t names e body parts closing next => do
    let items ← Run.inLayer do
      let items ← Run.located env t (Run.loopItems env e)
      Run.rounds env names (body.render env) (parts.endOfBody closing) t items
      pure items
    parts.render env items.isEmpty
    next.render env
  | .skipped _ _ _ next => next.render env

/-- Render the first body of a chain whose condition holds. -/
def Chain.render (env : Environment) : Chain → Run Unit
  | .done => pure ()
  | .otherwise _ body => body.render env
  | .alternative t c body chain => Run.choose env t c (body.render env) (chain.render env)

/-- Render what follows the body of a loop: the body of the first part if the loop was empty, and
else what its chain gives.  A further part does not ask any more whether there were items. -/
def EmptyParts.render (env : Environment) : EmptyParts → (empty : Bool) → Run Unit
  | .none, _ => pure ()
  | .part _ body _ more, true => do
    body.render env
    more.render env true
  | .part _ _ chain more, false => do
    chain.render env
    more.render env true

end

/-- Render a tree in a world.  The result is the output as a safe text; layers that a failure
leaves behind are taken away. -/
def Tree.run (env : Environment) (tree : Tree) : EStateM Error World Value := fun w =>
  let close (f : Frame) : World :=
    { f.world with scopes := f.world.scopes.unwind w.scopes.depth }
  match tree.render env ⟨w, [], [], []⟩ with
  | .error e f => .error e (close f)
  | .ok _ f =>
    match joinOutput f.output with
    | .ok text => .ok (.markup text) (close f)
    | .error cause => .error (Error.of cause) (close f)

/-! ## 3. Conditions of the source -/

namespace Condition

/-- The condition does not ask for a flag. -/
def Plain : Condition → Prop
  | truth _ | comparison .. => True
  | negation c => c.Plain
  | flagUnset _ => False

/-- Flags do not matter to a plain condition. -/
theorem holds_of_plain {filters : Table Filter} {scopes : Scopes} (flags : List String) :
    ∀ {c : Condition}, c.Plain → c.holds filters scopes flags = c.holds filters scopes []
  | truth _, _ => rfl
  | comparison .., _ => rfl
  | negation c, h => by rw [holds, holds, holds_of_plain flags (c := c) h]

theorem plain_of_readPlain {text first : List Char} {rest : List (List Char)} {c : Condition}
    (h : readPlain text first rest = .ok c) : c.Plain := by
  unfold readPlain at h
  split at h
  · cases hr : Expression.read (spaced (first :: rest)) with
    | error cause => rw [hr] at h; cases h
    | ok e =>
      rw [hr] at h
      injection h with h
      rw [← h]
      trivial
  · split at h
    · cases h
    · rename_i left op right _ _
      cases hl : Expression.read (spaced left) with
      | error cause => rw [hl] at h; cases h
      | ok l =>
        cases hr : Expression.read (spaced right) with
        | error cause => rw [hl, hr] at h; cases h
        | ok r =>
          rw [hl, hr] at h
          injection h with h
          rw [← h]
          trivial

/-- **A condition that is read never asks for a flag.** -/
theorem plain_of_read {text : List Char} {c : Condition} (h : read text = .ok c) : c.Plain := by
  fun_induction read text generalizing c with
  | case1 => cases h
  | case2 => cases h
  | case3 text rest _ _ ih =>
    cases hr : read (spaced rest) with
    | error cause => rw [hr] at h; cases h
    | ok c' =>
      rw [hr] at h
      injection h with h
      rw [← h]
      show c'.Plain
      exact ih hr
  | case4 => exact plain_of_readPlain h

end Condition

namespace Marker

theorem Stated.plain {n : Numbers} {remainder : List Char} {command : String} {m : Marker}
    {c : Condition} (h : Stated n remainder command m)
    (hm : m = .conditional c ∨ m = .alternative c) : c.Plain := by
  cases h with
  | conditional read =>
    rcases hm with hm | hm <;> cases hm
    exact Condition.plain_of_read read
  | alternative read =>
    rcases hm with hm | hm <;> cases hm
    exact Condition.plain_of_read read
  | _ => rcases hm with hm | hm <;> cases hm

/-- The condition of a marker is plain. -/
theorem plain_of_read {n : Numbers} {t : Token} {m : Marker} {c : Condition}
    (h : read? n t = some m) (hm : m = .conditional c ∨ m = .alternative c) : c.Plain := by
  rcases cases_of_read h with ⟨-, l, hl⟩ | ⟨-, -, hs⟩
  · rcases hm with hm | hm <;> rw [hl] at hm <;> cases hm
  · exact hs.plain hm

end Marker

/-! ## 4. The evaluation is local -/

namespace Run

theorem holds_local (env : Environment) (c : Condition) : Local (holds env c) :=
  Local.scopes.bind fun _ => .eval _

theorem choose_local {env : Environment} {t : Token} {c : Condition} {x y : Run Unit}
    (hx : Local x) (hy : Local y) : Local (choose env t c x y) :=
  ((holds_local env c).located env t).bind fun b => by
    cases b
    · exact hy
    · exact hx

theorem loopItems_local (env : Environment) (e : Expression) : Local (loopItems env e) :=
  Local.scopes.bind fun _ => .eval _

theorem rounds_local {env : Environment} {names : List String} {body : Run Unit} {later : Token}
    (hb : Local body) : ∀ (items : List LoopItem) (now : Token),
      Local (rounds env names body later now items)
  | [], _ => .pure ()
  | item :: rest, now =>
    ((bindItem_local names item).located env now).bind fun _ =>
      hb.bind fun _ => rounds_local hb rest later

/-- **A layer that is added for a computation is taken away behind it, and no other.** -/
theorem inLayer_local {α : Type} {x : Run α} (hx : Local x) : Local (inLayer x) where
  framed := by
    have hpush : Framed pushLayer := fun _ _ _ => rfl
    have hdrop : Framed dropLayer := fun _ _ _ => rfl
    exact hpush.bind fun _ => hx.framed.bind fun a => hdrop.bind fun _ => .pure a
  depth := by
    intro f a f' h
    have hpush : pushLayer f = .ok () { f with
      world := { f.world with scopes := f.world.scopes.push [] } } := rfl
    simp only [inLayer, Bind.bind, EStateM.bind, hpush] at h
    split at h
    · rename_i b f'' hxf
      have hd := hx.depth hxf
      injection h with _ h
      rw [← h]
      simp only [Scopes.depth, Scopes.push, List.length_cons, List.length_tail] at hd ⊢
      omega
    · cases h

end Run

theorem Leaf.render_local (env : Environment) (l : Leaf) : Run.Local (l.render env) := by
  cases l with
  | nothing => exact .pure ()
  | text s => exact .write _
  | expression e => exact Run.Local.scopes.bind fun _ => (Run.Local.eval _).bind fun _ => .write _
  | cycle values counter =>
    exact Run.Local.scopes.bind fun _ => (Run.Local.eval _).bind fun _ => .write _
  | serial name number => exact Run.Local.scopes.bind fun _ => .eval _

mutual

/-- **Rendering a tree is local.** -/
theorem Tree.render_local (env : Environment) : ∀ tree : Tree, Run.Local (tree.render env)
  | .nil => .pure ()
  | .leaf t l next => ((l.render_local env).located env t).bind fun _ => next.render_local env
  | .conditional t c body chain _ next =>
    (Run.choose_local (body.render_local env) (chain.render_local env)).bind fun _ =>
      next.render_local env
  | .loop t names e body parts closing next => by
    refine Run.Local.bind (Run.inLayer_local ?_) fun items => ?_
    · refine ((Run.loopItems_local env e).located env t).bind fun items => ?_
      exact (Run.rounds_local (body.render_local env) items t).bind fun _ => .pure items
    · exact (parts.render_local env items.isEmpty).bind fun _ => next.render_local env
  | .skipped _ _ _ next => next.render_local env

theorem Chain.render_local (env : Environment) : ∀ chain : Chain, Run.Local (chain.render env)
  | .done => .pure ()
  | .otherwise _ body => body.render_local env
  | .alternative _ _ body chain =>
    Run.choose_local (body.render_local env) (chain.render_local env)

theorem EmptyParts.render_local (env : Environment) : ∀ (parts : EmptyParts) (empty : Bool),
    Run.Local (parts.render env empty)
  | .none, _ => .pure ()
  | .part _ body _ more, true => (body.render_local env).bind fun _ => more.render_local env true
  | .part _ _ chain more, false => (chain.render_local env).bind fun _ => more.render_local env true

end

end TextTemplate
