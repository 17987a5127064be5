/-
# Engines

An engine is a grammar with two switches.  It is set up from libraries, which are given as they are
or by the dotted path of a module that holds one.

* `Catalogue` says which modules there are, and `Catalogue.library` finds the library of a path;
* `Engine` is an engine, `Engine.configure` sets one up, `Engine.standard` is the usual one.
-/
import TextTemplate.Grammar.Basic

namespace TextTemplate

open TextTemplate.Text

/-! ## 1. Modules -/

/-- A module: its library, if it has one, and whether it holds further modules. -/
structure LibraryModule where
  library : Option Library
  isPackage : Bool

/-- The modules that there are, by their paths, and the paths of those that every engine loads. -/
structure Catalogue where
  modules : Table LibraryModule
  defaults : List String

namespace Catalogue

/-- The path that a row of segments makes up. -/
def join (segments : List String) : String := ".".intercalate segments

/-- Walk down to a module: `parent` is the path so far with its module, `path` the whole one. -/
def walk (c : Catalogue) (path : String) (above : List String) (parent : LibraryModule) :
    List String → Except Cause LibraryModule
  | [] => .ok parent
  | segment :: rest =>
    let here := join (above ++ [segment])
    match parent.isPackage, c.modules.find? here with
    | false, _ => .error (.configuration (.noPackage path here (join above)))
    | true, none => .error (.configuration (.noSuchModule path here))
    | true, some found => c.walk path (above ++ [segment]) found rest

/-- The library of a path. -/
def library (c : Catalogue) (path : String) : Except Cause Library :=
  if path.toList.head? = some '.' then .error (.type (.relativeModule path))
  else if path = "" then .error (.value .noModuleName)
  else do
    let found ← c.walk path [] ⟨none, true⟩ ((splitAt '.' path.toList).map String.ofList)
    match found.library with
    | some lib => .ok lib
    | none => .error (.configuration (.noLibrary path))

end Catalogue

/-! ## 2. Engines -/

/-- The settings of an engine, as they are given. -/
structure EngineSettings where
  /-- Report the place of every error. -/
  debug : Value
  /-- Escape the output. -/
  autoescape : Value
  libraries : Value
  /-- Libraries that replace the defaults. -/
  builtins : Value
  delimiters : Value

/-- The settings that hold if none are given. -/
def EngineSettings.default : EngineSettings := ⟨.bool false, .bool true, .none, .none, .none⟩

/-- An engine. -/
structure Engine where
  debug : Value
  autoescape : Value
  libraries : Value
  builtins : Value
  /-- Does the engine report the place of errors? -/
  debugging : Bool
  grammar : Grammar

namespace Engine

/-- The usual engine. -/
def standard : Engine := ⟨.bool false, .bool true, .none, .none, false, Grammar.standard⟩

/-- The library that a value stands for; `held` are the libraries that are values themselves. -/
def loadLibrary (c : Catalogue) (held : Value → Option Library) (v : Value) : Eval Library :=
  match v with
  | .text path _ => Eval.read fun _ => c.library path
  | v =>
    match held v with
    | some lib => pure lib
    | none =>
      Eval.read fun s =>
        match s.written? v with
        | some written => .error (.configuration (.notALibrary written))
        | none => .error (.value .integerTextTooLong)

/-- A value, or a new list if there is none. -/
def listOr (items : List Value) (useList : Bool) (v : Value) : Eval Value :=
  if useList then Eval.make (·.newList items) else pure v

/-- Set up an engine. -/
def configure (c : Catalogue) (held : Value → Option Library) (settings : EngineSettings) :
    Eval Engine := do
  let libraries ← listOr [] (settings.libraries = .none) settings.libraries
  let usual := !(← get).truth settings.builtins
  let builtins ← listOr (c.defaults.map .plain) usual settings.builtins
  let further ← Eval.make (·.newList (← Eval.items libraries))
  let all ← Eval.plus builtins further
  let loaded ← (← Eval.items all).mapM (loadLibrary c held)
  let grammar ← Grammar.ofDelimiters settings.delimiters
  pure ⟨settings.debug, settings.autoescape, libraries, builtins, (← get).truth settings.debug,
    loaded.foldl Grammar.withLibrary grammar⟩

/-- An engine as it is shown. -/
def written (e : Engine) : Eval String := do
  let debug ← Eval.text e.debug
  let autoescape ← Eval.text e.autoescape
  let s ← get
  pure ("<Engine: debug=" ++ debug ++ " autoescape=" ++ autoescape ++ " builtins=" ++
    s.written e.builtins ++ " libraries=" ++ s.written e.libraries ++ ">")

end Engine
end TextTemplate
