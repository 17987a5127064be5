/-
# The place of an error

A debugging engine reports where in the source an error arose: the line, cut into what stands
before, at and behind the failing token, and the lines around it.

* `numberedLines` are the lines of a source with their numbers;
* `DebugInfo.of` finds a place, and `Error.placed` attaches it to an error.
-/
import TextTemplate.Error
import TextTemplate.Text.Line
import TextTemplate.Text.Markup

namespace TextTemplate

open TextTemplate.Text

/-! ## 1. Lines -/

/-- The lines of a source that are shown around the failing one, on each side. -/
def contextLines : Nat := 10

/-- A line: its number and the positions where it starts and ends. -/
structure Line where
  number : Nat
  start : Nat
  stop : Nat
  deriving DecidableEq, Repr

/-- Lines by their ends, the first starting at `start` with a number. -/
def linesFrom (number start : Nat) : List Nat → List Line
  | [] => []
  | stop :: ends => ⟨number, start, stop⟩ :: linesFrom (number + 1) stop ends

/-- The lines of a source.  An empty line 0 stands in front of the first. -/
def numberedLines (source : List Char) : List Line := linesFrom 0 0 (lineEnds source)

/-- The text of a source between two positions, as markup. -/
def excerpt (source : List Char) (start stop : Nat) : String :=
  escapeMarkup (String.ofList (slice start stop source))

/-- What is shown of an error without a message. -/
def noMessage : String := "(Could not get exception message)"

/-- The name of a source without a name. -/
def noSourceName : String := "<unknown source>"

/-- The name of a source: an empty name is none. -/
def sourceName (name : Option String) : String :=
  match name with
  | some name => if name = "" then noSourceName else name
  | none => noSourceName

/-! ## 2. Places -/

/-- The place of an error: the last line that holds all of it, cut into what is before, at and
behind the place, and the lines around it. -/
def DebugInfo.of (source : List Char) (name : Option String) (message : String)
    (start stop : Nat) : DebugInfo :=
  let lines := numberedLines source
  let failing := (lines.filter fun l => l.start ≤ start ∧ stop ≤ l.stop).getLast?
  let line := (failing.map Line.number).getD 0
  let total := lines.length
  let top := max 1 (line - contextLines)
  let bottom := min total (line + 1 + contextLines)
  let shown := (lines.take bottom).drop top
  { message := message
    sourceLines := shown.map fun l => (l.number, excerpt source l.start l.stop)
    before := (failing.map fun l => excerpt source l.start start).getD ""
    during := (failing.map fun _ => excerpt source start stop).getD ""
    after := (failing.map fun l => excerpt source stop l.stop).getD ""
    top := top
    bottom := bottom
    total := total
    line := line
    name := sourceName name
    start := start
    stop := stop }

/-- Attach to an error its place in a source, whether it has one or not. -/
def Error.placed (s : Store) (source : String) (name : Option String) (token : Token) (e : Error) :
    Error :=
  let place (message : String) : Error :=
    { e with debug := some (DebugInfo.of source.toList name message token.start token.stop) }
  match e.cause.argumentText s with
  | .absent => place noMessage
  | .text message => place message
  | .unprintable => Error.of (.value .integerTextTooLong)

end TextTemplate
