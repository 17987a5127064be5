/-
# Rendering

A template can be rendered any number of times, also from within another rendering in the same
context.  The outermost rendering binds the context to its template and releases it behind, whatever
comes of it; one inside finds the context bound and leaves it so.

* `Template.tied` runs a computation in a context that is bound to a template;
* `Template.renderWithin` renders a template in a world, `Template.render` in a context.
-/
import TextTemplate.Program.Machine

namespace TextTemplate

open TextTemplate.Text

namespace Template

/-! ## 1. Rendering -/

/-- Attach the place to an error of a run, if the engine asks for it and nothing is attached. -/
def locate (t : Template) (s : Store) (token : Option Token) (e : Error) : Error :=
  match token, e.debug with
  | some token, none => if t.engine.debugging then e.placed s t.source t.name token else e
  | _, _ => e

/-- What the template's program finds around it. -/
def environment (t : Template) (autoescape : Value) (nested : Value → EStateM Error World Value) :
    Environment :=
  ⟨t.grammar.filters, autoescape, t.locate, nested⟩

/-- A computation on values in a world. -/
def inWorld {α : Type} (x : Eval α) : EStateM Error World α := fun w =>
  match x w.store with
  | .ok a s => .ok a { w with store := s }
  | .error e s => .error e { w with store := s }

/-- Refuse a template that lies too deep, at its first statement. -/
def refuse (t : Template) (source : Value) : Eval Value := do
  let text ← Eval.text source
  let first := (t.engine.grammar.delimiters.tokens text).find? (·.kind = .statement)
  throw ((Error.of .tooDeep).at? first)

/-- Run a computation in a context that is bound to the template.  A free one is bound for the time
being, and takes over the template's name; it is released behind the computation, also when that
fails.  One that is bound already stays as it is. -/
def tied (t : Template) (x : EStateM Error World Value) : EStateM Error World Value := fun w =>
  match w.isBound with
  | .error cause => .error (Error.of cause) w
  | .ok true => x w
  | .ok false =>
    match w.bind t with
    | .error cause => .error (Error.of cause) w
    | .ok c =>
      match x { w with toContext := c.named t.name } with
      | .ok v w => .ok v { w with toContext := w.release }
      | .error e w => .error e { w with toContext := w.release }

/-- Run a template's program.  A template that it renders in turn is compiled with the same
engine; `levels` bounds how often this goes on. -/
def runWithin : (levels : Nat) → Template → Value → EStateM Error World Value
  | 0, t, autoescape => t.program.run (t.environment autoescape fun v => inWorld (t.refuse v))
  | levels + 1, t, autoescape =>
    t.program.run (t.environment autoescape fun v => do
      let inner ← inWorld (compile t.engine none v .empty)
      inner.tied (runWithin levels inner autoescape))

/-- Render a template in a world. -/
def renderWithin (levels : Nat) (t : Template) (autoescape : Value) : EStateM Error World Value :=
  t.tied (runWithin levels t autoescape)

/-- Renderings inside each other go no deeper than this. -/
def maxLevels : Nat := 320

/-- Render a template in a context.  A bare context, which has no settings, is refused. -/
def render (t : Template) (c : Context) (s : Store) : Except Error Value × Context × Store :=
  match c.settings with
  | none => (.error (Error.of (Context.missing "template")), c, s)
  | some settings =>
    match renderWithin maxLevels t settings.autoescape ⟨c, s⟩ with
    | .ok v w => (.ok v, w.toContext, w.store)
    | .error e w => (.error e, w.toContext, w.store)

end Template

/-! ## 2. Programs without a template -/

/-- What a program without a template finds around it: errors get no place, and there is no engine
to compile a template with. -/
def Environment.detached (filters : Table Filter) (autoescape : Value) : Environment :=
  ⟨filters, autoescape, fun _ _ e => e,
    fun _ => throw (Error.of (.noAttribute "NoneType" "engine"))⟩

end TextTemplate
