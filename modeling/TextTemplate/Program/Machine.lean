/-
# Running a program

A program runs instruction by instruction.  A running loop holds the items that are left to it: a
loop takes its items when it starts, so what happens inside it cannot change them.

* `World` is what a run shares with its surroundings, `Frame` what belongs to the run alone;
* `Linked.execute` carries out one instruction, and `Linked.step` is a step of a run;
* `Program.run` runs a program.  Layers that it leaves on the scopes are taken away, also when it
  fails.
-/
import TextTemplate.Context
import TextTemplate.Program.Rank

namespace TextTemplate

open TextTemplate.Decimal

/-! ## 1. State -/

/-- What a run shares with its surroundings: a context and the values. -/
structure World extends Context where
  store : Store

/-- What a loop binds in one round: a key and a value, or one value to be taken apart. -/
inductive LoopItem where
  | pair (key value : Value)
  | packed (v : Value)
  deriving DecidableEq, Repr

/-- A running loop: where it started, the names that it binds, and the items left. -/
structure Loop where
  start : Nat
  names : List String
  rest : List LoopItem
  /-- The number of items left. -/
  left : Nat
  left_eq : left = rest.length
  deriving DecidableEq, Repr

namespace Loop

/-- A loop that has some items left. -/
def make (start : Nat) (names : List String) (rest : List LoopItem) : Loop :=
  ⟨start, names, rest, rest.length, rfl⟩

/-- The next item of a loop, and the loop without it. -/
def next? (l : Loop) : Option (LoopItem × Loop) :=
  match h : l.rest with
  | [] => none
  | item :: rest =>
    have h' : l.left - 1 = rest.length := by rw [l.left_eq, h, List.length_cons]; rfl
    some (item, ⟨l.start, l.names, rest, l.left - 1, h'⟩)

end Loop

/-- The state of a run: the world, what has been written, the latest first, the running loops, the
innermost first, and the flags that are set. -/
structure Frame where
  world : World
  output : List Value
  loops : List Loop
  flags : List String

/-- What a program finds around it when it runs. -/
structure Environment where
  filters : Table Filter
  /-- Is output escaped?  A value that counts as true says so. -/
  autoescape : Value
  /-- Attach to an error its place in the source, given the token of the failing instruction. -/
  locate : Store → Option Token → Error → Error
  /-- Render the text of a value as a template in the same world. -/
  nested : Value → EStateM Error World Value

/-- A computation inside a run. -/
abbrev Run (α : Type) := EStateM Error Frame α

namespace Run

/-- A computation on the world inside a run. -/
def inWorld {α : Type} (x : EStateM Error World α) : Run α := fun f =>
  match x f.world with
  | .ok a w => .ok a { f with world := w }
  | .error e w => .error e { f with world := w }

/-- A computation on values inside a run. -/
def eval {α : Type} (x : Eval α) : Run α := fun f =>
  match x f.world.store with
  | .ok a s => .ok a { f with world := { f.world with store := s } }
  | .error e s => .error e { f with world := { f.world with store := s } }

/-- The scopes. -/
def scopes : Run Scopes := do pure (← get).world.scopes

/-- Change the scopes. -/
def setScopes (c : Scopes) : Run Unit :=
  modify fun f => { f with world := { f.world with scopes := c } }

/-- Write a piece of output. -/
def write (v : Value) : Run Unit := modify fun f => { f with output := v :: f.output }

/-- Bind a name in the innermost layer. -/
def bind (name : String) (v : Value) : Run Unit := do
  let c ← eval ((← scopes).write (.plain name) v)
  setScopes c

end Run

/-! ## 2. Output -/

/-- A value as a piece of output: nothing is the empty text, and unless output is not escaped, what
is no markup is escaped. -/
def Eval.output (autoescape v : Value) : Eval Value := do
  let v := if v = .none then .plain "" else v
  if (← get).truth autoescape then Eval.asMarkup v else do pure (.plain (← Eval.text v))

/-- The pieces of output put together, the latest first; each must be a text. -/
def joinOutput : List Value → Except Cause String
  | [] => .ok ""
  | v :: earlier => do
    let before ← joinOutput earlier
    match v with
    | .text t _ => .ok (before ++ t)
    | v => .error (.type (.notText earlier.length v.typeName))

/-! ## 3. Loops -/

/-- The items of a loop over a value: the pairs of a mapping, or of anything else that has pairs
to give, and otherwise the items with their numbers.  What cannot be iterated over has none. -/
def Eval.loopItems (v : Value) : Eval (List LoopItem) := do
  match v with
  | .dict r => pure (((← get).dict r).map fun e => .pair e.label e.value)
  | v =>
    if ← Eval.read (·.hasAttribute v "items") then
      match (← get).attribute? v "items" with
      | some (.ok member) => do
        let items ← Eval.items (← Eval.call member)
        pure (items.map .packed)
      | some (.error cause) => Eval.fail cause
      | none => pure []
    else
      match ← Eval.stream? v with
      | none => pure []
      | some st =>
        match st.failure with
        | none => pure (st.items.mapIdx fun i item => .pair (.int i) item)
        | some cause => if cause.kind = .mistyped then pure [] else Eval.fail cause

/-- Bind the names of a loop to an item.  One name gets the value alone. -/
def Run.bindItem (names : List String) (item : LoopItem) : Run Unit := do
  let (key, value) ← match item with
    | .pair key value => pure (key, value)
    | .packed v => Run.eval (Eval.pairOf v)
  match names with
  | [] => Run.eval (Eval.fail (.index .list))
  | [name] => Run.bind name value
  | first :: second :: _ => do
    Run.bind first key
    Run.bind second value

/-! ## 4. Instructions -/

/-- The place of a number in turn among some values. -/
def turn (count : Value) (values : Nat) : Except Cause Nat :=
  match count.numeric? with
  | some (.integer n) =>
    if values = 0 then .error .moduloByZero else .ok (n % (values : Int)).toNat
  | _ =>
    if values = 0 then .error .floatModuloByZero
    else .error (.type (.listIndex "list" count.typeName))

/-- Write the value whose turn it is.  The turn is counted before the value is evaluated. -/
def Run.cycle (env : Environment) (values : List Expression) (counter : String) : Run Unit := do
  let c ← Run.scopes
  let v ← Run.eval do
    let count ← c.lookupOr (.plain counter) (.int 0)
    let next ← Eval.plus count (.int 1)
    c.writeRoot (.plain counter) next
    let i ← Eval.read fun _ => turn count values.length
    match values[i]? with
    | none => Eval.fail (.index .list)
    | some value => do Eval.output env.autoescape (← value.resolve env.filters c)
  Run.write v

/-- Carry out an instruction at a place.  The result is where to go on, if not behind it. -/
def Linked.execute (env : Environment) (i : Linked) (place : Nat) : Run (Option Nat) := do
  match i.instruction with
  | .literal text => do
    Run.write (.plain text)
    pure none
  | .expression e => do
    let c ← Run.scopes
    let v ← Run.eval do Eval.output env.autoescape (← e.resolve env.filters c)
    Run.write v
    pure none
  | .pushScope => do
    Run.setScopes ((← Run.scopes).push [])
    pure none
  | .popScope =>
    match (← Run.scopes).pop? with
    | some (_, c) => do
      Run.setScopes c
      pure none
    | none => Run.eval (Eval.fail .popBeyondRoot)
  | .branch condition _ => do
    let c ← Run.scopes
    let holds ← Run.eval (condition.holds env.filters c (← get).flags)
    pure (if holds then none else i.target)
  | .otherwise | .skip => pure i.target
  | .loopStart sequence names => do
    let c ← Run.scopes
    let items ← Run.eval do Eval.loopItems (← sequence.resolve env.filters c)
    match items with
    | [] => pure i.target
    | item :: rest => do
      modify fun f => { f with loops := .make place names rest :: f.loops }
      Run.bindItem names item
      pure none
  | .loopNext =>
    match (← get).loops with
    | [] => Run.eval (Eval.fail (.index .list))
    | loop :: outer =>
      match loop.next? with
      | none => do
        modify fun f => { f with loops := outer }
        pure none
      | some (item, rest) => do
        modify fun f => { f with loops := rest :: outer }
        Run.bindItem loop.names item
        pure i.target
  | .setFlag name => do
    modify fun f => { f with flags := f.flags.insert name }
    pure none
  | .clearFlag name => do
    modify fun f => { f with flags := f.flags.filter (· != name) }
    pure none
  | .cycle values counter => do
    Run.cycle env values counter
    pure none
  | .assign name v => do
    let c ← Run.scopes
    Run.eval (c.writeRoot (.plain name) v)
    pure none
  | .nested source => do
    let c ← Run.scopes
    let v ← Run.eval (source.resolve env.filters c)
    Run.write (← Run.inWorld (env.nested v))
    pure none
  | .endBranch | .endSkip | .noop => pure none

/-- One step: carry out the instruction at a place, and attach its place in the source to an error.
The result is the place to go on at. -/
def Linked.step (env : Environment) (i : Linked) (place : Nat) : Run Nat := fun f =>
  match i.execute env place f with
  | .error e f' => .error (env.locate f'.world.store i.token e) f'
  | .ok target f' => .ok (target.getD (place + 1)) f'

/-! ## 5. Programs -/

namespace Program

/-- The rank of a place in a run. -/
def rank (p : Program) (place : Nat) (f : Frame) : Rank :=
  Rank.of p.size place (f.loops.map fun l => (l.start, l.left))

/-- Run from a place on.  Each step lowers the rank of the place or uses up one of the `spare`
steps; in a program whose blocks nest no step needs one. -/
def runFrom (p : Program) (env : Environment) (spare place : Nat) (f : Frame) :
    EStateM.Result Error Frame Unit :=
  match p.code[place]? with
  | none => .ok () f
  | some i =>
    match i.step env place f with
    | .error e f' => .error e f'
    | .ok next f' =>
      if (p.rank next f').below (p.rank place f) then p.runFrom env spare next f'
      else
        match spare with
        | 0 => .error (Error.of .tooDeep) f'
        | spare + 1 => p.runFrom env spare next f'
termination_by (spare, p.rank place f)
decreasing_by
  · exact Prod.Lex.right _ (by assumption)
  · exact Prod.Lex.left _ _ (Nat.lt_succ_self _)

/-- The spare steps of every run. -/
def spareSteps : Nat := 100000

/-- Run a program in a world.  The result is the output as a safe text. -/
def run (p : Program) (env : Environment) : EStateM Error World Value := fun w =>
  let close (f : Frame) : World :=
    { f.world with scopes := f.world.scopes.unwind w.scopes.depth }
  match p.runFrom env spareSteps 0 ⟨w, [], [], []⟩ with
  | .error e f => .error e (close f)
  | .ok _ f =>
    match joinOutput f.output with
    | .ok text => .ok (.markup text) (close f)
    | .error cause => .error (Error.of cause) (close f)

end Program
end TextTemplate
