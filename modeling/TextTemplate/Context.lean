/-
# Contexts

A context is what a template is rendered in: scopes and the settings of the rendering.  A context
may also be bare, without settings: then names can be looked up in it, but nothing be rendered.

* `Context` is the type, `Context.make` makes one of a mapping;
* `Context.bind` binds a context to the template that is rendered in it, `Context.release` undoes
  it.
-/
import TextTemplate.Scopes.Layers
import TextTemplate.Template.Basic

namespace TextTemplate

/-- The settings of a rendering. -/
structure RenderSettings where
  autoescape : Value
  /-- The name of the template that was rendered last, if it has one. -/
  templateName : Option String
  /-- The template that is being rendered, if one is. -/
  template : Option Template

/-- A context. -/
structure Context where
  scopes : Scopes
  settings : Option RenderSettings

namespace Context

/-- The name of the template before any has been rendered. -/
def unknownName : String := "unknown"

/-- The root layer: a new mapping if none is given. -/
def rootOf (v : Value) : Eval Value :=
  match v with
  | .none => Eval.make (·.newDict [])
  | v => pure v

/-- A bare context over a root layer. -/
def bare (root : Value) : Eval Context := do pure ⟨Scopes.ofRoot (← rootOf root), none⟩

/-- A context over a root layer. -/
def ofRoot (root autoescape : Value) : Eval Context := do
  pure ⟨Scopes.ofRoot (← rootOf root), some ⟨autoescape, some unknownName, none⟩⟩

/-- A context over a mapping, or over nothing. -/
def make (root autoescape : Value) : Eval Context :=
  match root with
  | .none | .dict _ => ofRoot root autoescape
  | v => Eval.fail (.type (.rootNotMapping v.typeName))

/-- The name of the parameter that no pushed name may have. -/
def reservedLabel : String := "self"

/-- Push a layer of names given by a mapping.  Every name must be a text. -/
def push (c : Context) (layer : Dict) : Except Cause Context :=
  if layer.any fun e => !(e.key matches .text _) then .error (.type .labelsNotText)
  else if layer.any fun e => e.key = .text reservedLabel then
    .error (.type (.argumentTwice "BaseContext.push" reservedLabel))
  else .ok { c with scopes := c.scopes.push layer }

/-- What a missing setting is reported as. -/
def missing (name : String) : Cause := .noAttribute "BaseContext" name

/-- Is the context bound to a template? -/
def isBound (c : Context) : Except Cause Bool :=
  match c.settings with
  | some settings => .ok settings.template.isSome
  | none => .error (missing "template")

/-- Bind a context to a template. -/
def bind (c : Context) (t : Template) : Except Cause Context :=
  match c.settings with
  | none => .error (missing "bind_template")
  | some settings =>
    match settings.template with
    | some _ => .error .alreadyBound
    | none => .ok { c with settings := some { settings with template := some t } }

/-- Set the name of the template that was rendered last. -/
def named (c : Context) (name : Option String) : Context :=
  { c with settings := c.settings.map ({ · with templateName := name }) }

/-- Release a context from its template. -/
def release (c : Context) : Context :=
  { c with settings := c.settings.map ({ · with template := none }) }

end Context
end TextTemplate
