/-
# Assembly

Instructions are collected in the order of the source and then linked: each jump gets its target,
and conditionals, loops and skipped regions are checked to nest.

The code of a template is assembled once, from instructions that were made for it.  So no
instruction has been linked before, and none has a target when linking begins: one that linking
passes over, as it does a branch that is overtaken by a chained one, has no target behind it either.
Instructions that another program has been assembled from, and the targets that they would bring
along, are not considered.

One instruction may stand at several places.  Its places share a **label**, and with it one target
and one token: of several targets the last counts, of several tokens the first.

* `Item` is an instruction at a place, `Linked` one that is ready to run;
* `OpenBlock` is a block whose end has not been reached, `Assembly.link` takes in one item;
* `Program.assemble` links a whole row of items.
-/
import TextTemplate.Program.Instruction

namespace TextTemplate

/-! ## 1. Types -/

/-- An instruction at a place.  It was made for the row that it stands in, and has no target yet. -/
structure Item where
  label : Nat
  instruction : Instruction
  token : Option Token
  deriving DecidableEq, Repr

/-- An instruction with its token and, if it jumps, where to. -/
structure Linked where
  instruction : Instruction
  token : Option Token
  target : Option Nat
  deriving DecidableEq, Repr

/-- A program is a row of linked instructions. -/
structure Program where
  code : Array Linked
  deriving DecidableEq, Repr

/-- The number of instructions. -/
def Program.size (p : Program) : Nat := p.code.size

/-- The kinds of blocks. -/
inductive BlockKind where
  | conditional
  | loop
  | skipped
  deriving DecidableEq, Repr

/-- The name of a kind of block in messages. -/
def BlockKind.name : BlockKind → String
  | conditional => "if"
  | loop => "loop"
  | skipped => "skip"

/-- A block whose end has not been reached. -/
structure OpenBlock where
  kind : BlockKind
  /-- The instruction that opened it, and its place. -/
  opener : Item
  index : Nat
  /-- The label of the branch that has no target yet.  There is none behind an `otherwise`. -/
  pending : Option Nat
  /-- The labels of the instructions that jump to the end. -/
  exits : List Nat
  deriving DecidableEq, Repr

/-- The state of linking: the open blocks, the innermost first, and the targets found so far, the
latest first. -/
structure Assembly where
  blocks : List OpenBlock
  targets : List (Nat × Nat)
  deriving DecidableEq, Repr

/-! ## 2. Tokens -/

/-- The token of a label: the first one that is given with it. -/
def tokenOf? (items : List Item) (label : Nat) : Option Token :=
  items.findSome? fun item => if item.label = label then item.token else none

/-! ## 3. Linking -/

namespace Assembly

/-- No block is open. -/
def start : Assembly := ⟨[], []⟩

/-- Give a label a target. -/
def aim (a : Assembly) (label target : Nat) : Assembly :=
  { a with targets := (label, target) :: a.targets }

/-- Open a block. -/
def openBlock (a : Assembly) (kind : BlockKind) (item : Item) (index : Nat) : Assembly :=
  { a with blocks := ⟨kind, item, index, some item.label, []⟩ :: a.blocks }

/-- The innermost block, which must be of the right kind, and the blocks around it. -/
def expect (a : Assembly) (kind : BlockKind) (item : Item) (token : Option Token) :
    Except Error (OpenBlock × List OpenBlock) :=
  let fault (found : String) : Error :=
    (Error.syntaxFault (.misplaced item.instruction.title kind.name found)).at? token
  match a.blocks with
  | [] => .error (fault "top level")
  | block :: rest => if block.kind = kind then .ok (block, rest) else .error (fault block.kind.name)

/-- Take in the item at a place; `token` is the token of its label. -/
def link (a : Assembly) (index : Nat) (item : Item) (token : Option Token) :
    Except Error Assembly :=
  match item.instruction with
  | .branch _ false => .ok (a.openBlock .conditional item index)
  | .branch _ true => do
    let (block, rest) ← a.expect .conditional item token
    .ok { a with blocks := { block with pending := some item.label } :: rest }
  | .otherwise => do
    let (block, rest) ← a.expect .conditional item token
    match block.pending with
    | none => .error ((Error.syntaxFault .secondElse).at? token)
    | some pending =>
      let block := { block with pending := none, exits := item.label :: block.exits }
      .ok ({ a with blocks := block :: rest }.aim pending (index + 1))
  | .endBranch => do
    let (block, rest) ← a.expect .conditional item token
    let a := { a with blocks := rest }
    let a := match block.pending with
      | some pending => a.aim pending (index + 1)
      | none => a
    .ok (block.exits.foldr (fun label a => a.aim label (index + 1)) a)
  | .loopStart .. => .ok (a.openBlock .loop item index)
  | .loopNext => do
    let (block, rest) ← a.expect .loop item token
    let a := { a with blocks := rest }
    .ok ((a.aim block.opener.label (index + 1)).aim item.label (block.index + 1))
  | .skip => .ok (a.openBlock .skipped item index)
  | .endSkip => do
    let (block, rest) ← a.expect .skipped item token
    .ok ({ a with blocks := rest }.aim block.opener.label (index + 1))
  | _ => .ok a

/-- Take in the items from a place on. -/
def linkFrom (tokenOf : Nat → Option Token) (a : Assembly) (index : Nat) :
    List Item → Except Error Assembly
  | [] => .ok a
  | item :: items => do
    let a ← a.link index item (tokenOf item.label)
    a.linkFrom tokenOf (index + 1) items

end Assembly

/-- Link a row of items, none of which has been linked before: an instruction that gets no target
here has none. -/
def Program.assemble (items : List Item) : Except Error Program := do
  let a ← Assembly.start.linkFrom (tokenOf? items) 0 items
  match a.blocks with
  | block :: _ =>
    .error ((Error.syntaxFault (.unclosedBlock block.kind.name block.opener.instruction.title)).at?
      (tokenOf? items block.opener.label))
  | [] =>
    .ok ⟨(items.map fun item =>
      ⟨item.instruction, tokenOf? items item.label, a.targets.lookup item.label⟩).toArray⟩

end TextTemplate
