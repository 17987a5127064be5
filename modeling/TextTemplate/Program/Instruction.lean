/-
# Instructions

A compiled template is a row of instructions.  Some write output, some change the scopes, and some
mark where conditionals, loops and skipped regions begin, go on and end.

* `Instruction` is the type;
* `Instruction.written` is how one is shown in listings and messages;
* `Instruction.references` are the names that it refers to.
-/
import TextTemplate.Expression.Condition

namespace TextTemplate

open TextTemplate.Text

/-- An instruction. -/
inductive Instruction where
  /-- Write a text. -/
  | literal (text : String)
  /-- Write the value of an expression. -/
  | expression (e : Expression)
  /-- Add an empty layer of names. -/
  | pushScope
  /-- Take the innermost layer away. -/
  | popScope
  /-- Go on if the condition holds, else jump.  A chained branch goes on with the conditional
  around it instead of beginning a new one. -/
  | branch (condition : Condition) (chained : Bool)
  /-- End of a branch that was taken. -/
  | otherwise
  /-- End of a conditional. -/
  | endBranch
  /-- Evaluate a sequence and bind its first item, or jump if there is none. -/
  | loopStart (sequence : Expression) (names : List String)
  /-- Bind the next item of the innermost loop and jump back, or leave the loop. -/
  | loopNext
  | setFlag (name : String)
  | clearFlag (name : String)
  /-- Jump to the end of a region that never runs. -/
  | skip
  | endSkip
  /-- Write the value whose turn it is; the turns are counted in the root layer. -/
  | cycle (values : List Expression) (counter : String)
  /-- Bind a name in the root layer. -/
  | assign (name : String) (value : Value)
  | noop
  /-- Compile the text of an expression as a template and render it here. -/
  | nested (source : Expression)
  deriving DecidableEq, Repr

namespace Instruction

/-- An instruction as it is shown, given how a value is written. -/
def writtenWith (value : Value → String) : Instruction → String
  | literal text => "<EmitLiteral: " ++ quoted (String.ofList (text.toList.take 25)) ++ ">"
  | expression e => "<EmitExpression: " ++ e.text ++ ">"
  | pushScope => "<PushScope>"
  | popScope => "<PopScope>"
  | branch condition _ => "<Branch: " ++ condition.written ++ ">"
  | otherwise => "<Else>"
  | endBranch => "<EndBranch>"
  | loopStart sequence names =>
    "<LoopStart: for " ++ commaSeparated names ++ " in " ++ sequence.text ++ ">"
  | loopNext => "<LoopNext>"
  | setFlag _ => "<SetFlag>"
  | clearFlag _ => "<ClearFlag>"
  | skip => "<Skip>"
  | endSkip => "<EndSkip>"
  | cycle values _ => "<Cycle: " ++ " ".intercalate (values.map (·.text)) ++ ">"
  | assign name v => "<Assign: " ++ name ++ "=" ++ value v ++ ">"
  | noop => "<Instruction>"
  | nested _ => "<Sub>"

/-- An instruction as it is shown. -/
def written (s : Store) (i : Instruction) : String := i.writtenWith s.written

/-- The name of an instruction that opens, continues or closes a block; those hold no value. -/
def title (i : Instruction) : String := i.writtenWith fun _ => ""

/-- The names that an instruction refers to, from left to right. -/
def references : Instruction → List String
  | expression e => e.references
  | branch condition _ => condition.references
  | loopStart sequence _ => sequence.references
  | cycle values _ => values.flatMap (·.references)
  | nested source => source.references
  | _ => []

end Instruction
end TextTemplate
