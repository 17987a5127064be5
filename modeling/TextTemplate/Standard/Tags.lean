/-
# The standard tags

Conditionals, loops, cycles, comments and serial numbers.

* `Tag.standard` is the table of all of them;
* `loopTarget` reads what a loop binds.
-/
import TextTemplate.Compilation

namespace TextTemplate

open TextTemplate.Decimal TextTemplate.Text

namespace Tag

/-! ## 1. Conditionals -/

/-- Render the block when the condition holds. -/
def conditional : Tag where
  name := "do_if"
  compile remainder := do
    let condition ← Parse.condition remainder
    pure (.block [.branch condition false] (some [.endBranch]) none)

/-- Close the branch before and begin one with a condition of its own. -/
def alternative : Tag where
  name := "do_elif"
  compile remainder := do
    let condition ← Parse.condition remainder
    pure (.inline [.otherwise, .branch condition true])

/-- Close the branch before; what follows is rendered when no condition held. -/
def otherwise : Tag where
  name := "do_else"
  compile _ := pure (.inline [.otherwise])

/-! ## 2. Loops -/

/-- The name of the statement that closes a loop. -/
def loopClose : String := "endfor"

/-- The word between the names and the sequence of a loop, with the spaces around it. -/
def loopWord : List Char := [' ', 'i', 'n', ' ']

/-- The names that a loop binds and the text of its sequence: one or two names that are not
empty, and a sequence that is not blank. -/
def loopTarget (remainder : List Char) : Option (List String × List Char) := do
  let (target, sequence) ← before? loopWord remainder
  let names := (splitAt ',' target).map plainName
  if strip sequence = [] ∨ 2 < names.length ∨ names.any (·.isEmpty) then none
  else some (names.map String.ofList, strip sequence)

/-- Render the block once for each item of a sequence, in a layer of its own. -/
def loop : Tag where
  name := "do_for"
  compile remainder := do
    match loopTarget remainder with
    | none => Parse.fail (.template (.badLoop (String.ofList remainder)))
    | some (names, sequence) => do
      let e ← Parse.expression sequence
      pure (.block [.pushScope, .loopStart e names] (some [.loopNext, .popScope]) none)

/-- The flag that tells at some depth of blocks whether a loop had items. -/
def loopFlag (depth : Nat) : String := "forloop_iterated" ++ decimalNat depth

/-- Render the rest of a loop's block only when the loop had no items.  The end of the loop moves
here, and the rest becomes a conditional on a flag that the loop sets; there is one flag for each
depth, so nested loops do not share theirs. -/
def empty : Tag where
  name := "empty"
  compile _ := do
    match (← get).pending with
    | [] => Parse.fail (.template .misplacedEmpty)
    | block :: outer =>
      if block.closeName = loopClose then do
        let flag := loopFlag (outer.length + 1)
        modify fun p => { p with pending := outer }
        pure (.block ([.setFlag flag] ++ block.ending ++ [.branch (.flagUnset flag) false])
          (some [.endBranch, .clearFlag flag]) (some loopClose))
      else Parse.fail (.template .misplacedEmpty)

/-! ## 3. Cycles, comments, serial numbers -/

/-- The name under which a cycle counts its turns. -/
def cycleCounter (ordinal : Nat) : String := "cycle_counter" ++ decimalNat ordinal

/-- Write one of several values, the next one each time. -/
def cycle : Tag where
  name := "cycle"
  compile remainder := do
    match units remainder with
    | [] => Parse.fail (.template .cycleWithoutValues)
    | texts => do
      let values ← texts.mapM Parse.expression
      let n ← Parse.ordinal "cycle"
      pure (.inline [.cycle values (cycleCounter n)])

/-- Ignore the block.  It must be balanced all the same. -/
def comment : Tag where
  name := "comment"
  compile _ := pure (.block [.skip] (some [.endSkip]) none)

/-- The name that a serial number is bound to, unless one is given. -/
def serialName : String := "guid"

/-- Bind a new serial number to a name.  The number is given out by the compilation. -/
def serial : Tag where
  name := "make_guid"
  compile remainder := do
    let name := match plainName remainder with
      | [] => serialName
      | name => String.ofList name
    let n ← Parse.eval (Eval.make (·.newSerial))
    pure (.inline [.assign name (.int n)])

/-! ## 4. What they do inside a compilation -/

section Run

open Compile

variable (remainder : List Char)

theorem run_conditional : conditional.run remainder =
    condition remainder >>= fun condition =>
      pure (.block [.branch condition false] (some [.endBranch]) none) :=
  parsing_bind _ _

theorem run_alternative : alternative.run remainder =
    condition remainder >>= fun condition =>
      pure (.inline [.otherwise, .branch condition true]) :=
  parsing_bind _ _

theorem run_loop : loop.run remainder =
    match loopTarget remainder with
    | none => fail (.template (.badLoop (String.ofList remainder)))
    | some (names, sequence) => expression sequence >>= fun e =>
      pure (.block [.pushScope, .loopStart e names] (some [.loopNext, .popScope]) none) := by
  unfold run loop
  dsimp only
  split
  · rfl
  · exact parsing_bind _ _

theorem run_empty : empty.run remainder =
    get >>= fun c => match c.pending with
      | [] => fail (.template .misplacedEmpty)
      | block :: outer =>
        if block.closeName = loopClose then do
          let flag := loopFlag (outer.length + 1)
          modify fun c => { c with pending := outer }
          pure (.block ([.setFlag flag] ++ block.ending ++ [.branch (.flagUnset flag) false])
            (some [.endBranch, .clearFlag flag]) (some loopClose))
        else fail (.template .misplacedEmpty) := by
  unfold run empty
  rw [parsing_get_bind]
  congr 1
  funext c
  cases c.pending with
  | nil => rfl
  | cons block outer =>
    dsimp only
    split
    · exact parsing_bind _ _
    · rfl

theorem run_cycle : cycle.run remainder =
    match units remainder with
    | [] => fail (.template .cycleWithoutValues)
    | texts => texts.mapM expression >>= fun values =>
      parsing (.ordinal "cycle") >>= fun n => pure (.inline [.cycle values (cycleCounter n)]) := by
  unfold run cycle
  dsimp only
  split
  · rfl
  · rw [parsing_bind, parsing_mapM]
    simp only [parsing_bind, parsing_pure]
    rfl

theorem run_serial : serial.run remainder =
    parsing (.eval (Eval.make (·.newSerial))) >>= fun n =>
      pure (.inline [.assign (match plainName remainder with
        | [] => serialName
        | name => String.ofList name) (.int n)]) :=
  parsing_bind _ _

end Run

/-! ## 5. The table -/

/-- The standard tags by name. -/
def standard : Table Tag :=
  [("if", conditional), ("elif", alternative), ("else", otherwise), ("for", loop),
    ("empty", empty), ("cycle", cycle), ("comment", comment), ("make_guid", serial)]

/-- What holds of each of the standard tags holds of a tag of the table. -/
theorem forall_standard {P : Tag → Prop} (hconditional : P conditional)
    (halternative : P alternative) (hotherwise : P otherwise) (hloop : P loop) (hempty : P empty)
    (hcycle : P cycle) (hcomment : P comment) (hserial : P serial) {name : String} {tag : Tag}
    (h : (name, tag) ∈ standard) : P tag := by
  simp only [standard, List.mem_cons, Prod.mk.injEq, List.not_mem_nil, or_false] at h
  rcases h with ⟨-, rfl⟩ | ⟨-, rfl⟩ | ⟨-, rfl⟩ | ⟨-, rfl⟩ | ⟨-, rfl⟩ | ⟨-, rfl⟩ | ⟨-, rfl⟩ |
    ⟨-, rfl⟩
  all_goals assumption

end Tag
end TextTemplate
