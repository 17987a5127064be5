/-
# Compilation

A source is compiled in one pass over its tokens.  Text and expressions become instructions at
once.  A statement names a **tag**, which says what its instructions are; a tag may open a block,
whose last instructions wait until the statement that closes it is reached.

A tag is shown the open blocks, and it can read expressions and ask for numbers.  It gives its
instructions back, and the compilation puts them in place.

* `Parsing` is what a tag is shown, and `Parse` a step of it;
* `Compilation` is the state of a pass, and `Compile` a step of it;
* `Tag` is what a statement can name, and `TagResult` what it gives;
* `Compile.token` takes in one token, `Compile.source` all of them.
-/
import TextTemplate.Expression.Condition
import TextTemplate.Program.Assembly

namespace TextTemplate

open TextTemplate.Text

/-! ## 1. State -/

/-- A block that waits for the statement that closes it. -/
structure PendingClose where
  closeName : String
  ending : List Instruction
  /-- The token of the statement that opened the block. -/
  token : Token
  deriving DecidableEq, Repr

/-- What a compilation shows to a tag, after the documented interface of tags: the open blocks, and
what it takes to read expressions and to give out numbers.  The code that has been collected is not
shown; a tag gives its instructions back instead. -/
structure Parsing where
  store : Store
  /-- The open blocks, the innermost first. -/
  pending : List PendingClose
  /-- The variables of all expressions so far, the latest first. -/
  references : List String
  /-- How many numbers have been given out under each name. -/
  ordinals : Table Nat
  deriving DecidableEq, Repr

/-- The state of a compilation: that, and the code that has been collected, with the latest
first. -/
structure Compilation extends Parsing where
  code : List (Instruction × Token)
  deriving DecidableEq, Repr

/-- Nothing has been compiled. -/
def Compilation.start (s : Store) : Compilation := ⟨⟨s, [], [], []⟩, []⟩

/-- The instructions so far, each at its own place. -/
def Compilation.items (c : Compilation) : List Item :=
  c.code.reverse.mapIdx fun place p => ⟨place, p.1, some p.2⟩

/-- A step of a tag. -/
abbrev Parse (α : Type) := EStateM Error Parsing α

/-- A step of a compilation. -/
abbrev Compile (α : Type) := EStateM Error Compilation α

/-- What a tag gives: instructions that stand where the tag stands, or a block. -/
inductive TagResult where
  | inline (code : List Instruction)
  /-- The instructions at the beginning; the ones at the end, if the block is to be closed; and
  the name of the statement that closes it, if it is not the usual one. -/
  | block (start : List Instruction) (ending : Option (List Instruction)) (close : Option String)
  /-- Something that is neither. -/
  | other (v : Value)
  deriving DecidableEq, Repr

/-- A tag: the name of its function, and what it does with the text behind its name. -/
structure Tag where
  name : String
  compile : List Char → Parse TagResult

/-! ## 2. Steps of a tag -/

namespace Parse

/-- Fail for a cause. -/
def fail {α : Type} (cause : Cause) : Parse α := throw (Error.of cause)

/-- A computation on values. -/
def eval {α : Type} (x : Eval α) : Parse α := fun p =>
  match x p.store with
  | .ok a s => .ok a { p with store := s }
  | .error e s => .error e { p with store := s }

/-- The result of reading a text. -/
def reading {α : Type} (x : Except Cause α) : Parse α :=
  match x with
  | .ok a => pure a
  | .error cause => fail cause

/-- Note the variables of what has been read. -/
def note (names : List String) : Parse Unit :=
  modify fun p => { p with references := names.reverse ++ p.references }

/-- Read an expression, and note its variables. -/
def expression (cs : List Char) : Parse Expression := do
  let e ← reading (Expression.read cs)
  note e.references
  pure e

/-- Read a condition, and note its variables. -/
def condition (cs : List Char) : Parse Condition := do
  let condition ← reading (Condition.read cs)
  note condition.references
  pure condition

/-- The next number under a name: 0, 1, 2, … -/
def ordinal (name : String) : Parse Nat :=
  modifyGet fun p =>
    let n := (p.ordinals.find? name).getD 0
    (n, { p with ordinals := p.ordinals.insert name (n + 1) })

end Parse

/-! ## 3. Steps of a compilation -/

namespace Compile

/-- Fail for a cause. -/
def fail {α : Type} (cause : Cause) : Compile α := throw (Error.of cause)

/-- Attach a token to every error of a step that has none. -/
def located {α : Type} (token : Token) (x : Compile α) : Compile α :=
  tryCatch x fun e => throw (e.at? token)

/-- Attach a token to the syntax errors of a step. -/
def locatedSyntax {α : Type} (token : Token) (x : Compile α) : Compile α :=
  tryCatch x fun e => throw (if e.kind = .templateSyntax then e.at? token else e)

/-- A step of a tag inside a compilation.  The code stays as it is. -/
def parsing {α : Type} (x : Parse α) : Compile α := fun c =>
  match x c.toParsing with
  | .ok a p => .ok a { c with toParsing := p }
  | .error e p => .error e { c with toParsing := p }

section Parsing

variable {α β : Type}

@[simp] theorem parsing_pure (a : α) : parsing (pure a : Parse α) = pure a := rfl

@[simp] theorem parsing_bind (x : Parse α) (f : α → Parse β) :
    parsing (x >>= f) = parsing x >>= fun a => parsing (f a) := by
  funext c
  unfold parsing
  simp only [bind, EStateM.bind]
  cases x c.toParsing <;> rfl

@[simp] theorem parsing_fail (cause : Cause) :
    parsing (Parse.fail cause : Parse α) = fail cause := rfl

@[simp] theorem parsing_get_bind (f : Parsing → Parse β) :
    parsing (get >>= f) = get >>= fun c : Compilation => parsing (f c.toParsing) := rfl

@[simp] theorem parsing_modify (f : Parsing → Parsing) :
    parsing (modify f) = modify fun c : Compilation => { c with toParsing := f c.toParsing } := rfl

theorem parsing_mapM (f : α → Parse β) (xs : List α) :
    parsing (xs.mapM f) = xs.mapM fun x => parsing (f x) := by
  induction xs with
  | nil => rfl
  | cons x xs ih =>
    rw [List.mapM_cons, List.mapM_cons]
    simp only [parsing_bind, parsing_pure, ih]

theorem parsing_of_ok {x : Parse α} {c : Compilation} {a : α} {p : Parsing}
    (h : x c.toParsing = .ok a p) : parsing x c = .ok a { c with toParsing := p } := by
  unfold parsing
  rw [h]

end Parsing

/-- Read an expression, and note its variables. -/
def expression (cs : List Char) : Compile Expression := parsing (Parse.expression cs)

/-- Read a condition, and note its variables. -/
def condition (cs : List Char) : Compile Condition := parsing (Parse.condition cs)

/-- Add instructions that belong to a token. -/
def emit (code : List Instruction) (token : Token) : Compile Unit :=
  modify fun c => { c with code := (code.map (·, token)).reverse ++ c.code }

end Compile

/-- What a tag does inside a compilation. -/
def Tag.run (tag : Tag) (remainder : List Char) : Compile TagResult :=
  Compile.parsing (tag.compile remainder)

namespace Compile

/-! ## 4. Tokens -/

/-- The name of the statement that closes a block, unless the tag gives another. -/
def usualClose (command : String) : String := "end" ++ command

/-- Take in what a tag gives. -/
def tagResult (token : Token) (command : String) : TagResult → Compile Unit
  | .inline code => emit code token
  | .block start ending close => do
    emit start token
    match ending with
    | none => pure ()
    | some ending =>
      let closeName := match close with
        | some name => if name = "" then usualClose command else name
        | none => usualClose command
      modify fun c => { c with pending := ⟨closeName, ending, token⟩ :: c.pending }
  | .other v => do
    let written := (← get).store.written v
    located token (fail (.template (.unexpectedResult command written)))

/-- Take in a statement.  The name that closes the innermost block comes before all tags. -/
def statement (tags : Table Tag) (token : Token) : Compile Unit := do
  let cs := token.contents.toList
  match firstWord cs with
  | [] => located token (fail (.template (.emptyStatement token.line)))
  | word =>
    let command := String.ofList word
    let remainder := strip (cs.drop word.length)
    let pending := (← get).pending
    let named (expected : Option String) : Compile Unit :=
      match tags.find? command with
      | none =>
        located token (fail (.template (.unknownTag token.line token.start command expected)))
      | some tag => do
        let result ← located token (tag.run remainder)
        tagResult token command result
    match pending with
    | [] => named none
    | block :: outer =>
      if command = block.closeName then do
        modify fun c => { c with pending := outer }
        emit block.ending token
      else named (some block.closeName)

/-- Take in a token. -/
def token (tags : Table Tag) (t : Token) : Compile Unit := do
  match t.kind with
  | .text => if t.contents = "" then pure () else emit [.literal t.contents] t
  | .expression =>
    if t.contents = "" then located t (fail (.template (.emptyExpression t.line)))
    else do
      let e ← locatedSyntax t (expression t.contents.toList)
      emit [.expression e] t
  | .statement => statement tags t
  | .comment => pure ()

/-- Take in all tokens.  No block may be left open. -/
def source (tags : Table Tag) (tokens : List Token) : Compile Unit := do
  tokens.forM (token tags)
  match (← get).pending with
  | [] => pure ()
  | block :: _ =>
    let command := String.ofList (firstWord block.token.contents.toList)
    located block.token (fail (.template (.unclosedTag block.token.line command block.closeName)))

/-- Compile all tokens into a program. -/
def program (tags : Table Tag) (tokens : List Token) : Compile Program := do
  source tags tokens
  match Program.assemble (← get).items with
  | .ok p => pure p
  | .error e => throw e

end Compile
end TextTemplate
