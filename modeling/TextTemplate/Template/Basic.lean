/-
# Compiled templates

A template is a source compiled with the grammar of an engine.

* `Template` is the type;
* `Template.compile` compiles a source; with a debugging engine a syntax error gets its place.
-/
import TextTemplate.DebugInfo
import TextTemplate.Engine

namespace TextTemplate

open TextTemplate.Text

/-- A compiled template. -/
structure Template where
  name : Option String
  engine : Engine
  source : String
  grammar : Grammar
  program : Program
  /-- The variables that the template refers to, each once, in the order of the source. -/
  references : List String

namespace Template

/-- Attach the place to a syntax error of a compilation, if the engine asks for it. -/
def placeSyntax (engine : Engine) (source : String) (name : Option String) (s : Store)
    (e : Error) : Error :=
  match e.token with
  | some token =>
    if engine.debugging && e.kind = .templateSyntax then e.placed s source name token else e
  | none => e

/-- Compile a source with the grammar of an engine. -/
def compile (engine : Engine) (name : Option String) (source : Value) (o : Overrides) :
    Eval Template := do
  let source ← Eval.text source
  let grammar ← engine.grammar.clone o
  fun s =>
    match Compile.program grammar.tags (grammar.delimiters.tokens source) (.start s) with
    | .ok program c =>
      .ok ⟨name, engine, source, grammar, program, c.references.reverse.eraseDups⟩ c.store
    | .error e c => .error (placeSyntax engine source name c.store e) c.store

end Template
end TextTemplate
