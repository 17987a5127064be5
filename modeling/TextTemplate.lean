import TextTemplate.Compilation
import TextTemplate.Context
import TextTemplate.DebugInfo
import TextTemplate.Decimal.Binary64
import TextTemplate.Decimal.Integer
import TextTemplate.Decimal.Power
import TextTemplate.Decimal.Reading
import TextTemplate.Decimal.Shortest
import TextTemplate.Engine
import TextTemplate.Error
import TextTemplate.Expression.Basic
import TextTemplate.Expression.Condition
import TextTemplate.Expression.Filter
import TextTemplate.Expression.Operand
import TextTemplate.Extras.Filters
import TextTemplate.Extras.Tags
import TextTemplate.Grammar.Basic
import TextTemplate.Grammar.Delimiters
import TextTemplate.Grammar.Segment
import TextTemplate.Program.Assembly
import TextTemplate.Program.Instruction
import TextTemplate.Program.Machine
import TextTemplate.Program.Rank
import TextTemplate.Proofs.Assembly.Ending
import TextTemplate.Proofs.Assembly.Guards
import TextTemplate.Proofs.Assembly.Loops
import TextTemplate.Proofs.Assembly.Nesting
import TextTemplate.Proofs.Assembly.Targets
import TextTemplate.Proofs.Binding.ReadBack
import TextTemplate.Proofs.Binding.Rounds
import TextTemplate.Proofs.Binding.Texts
import TextTemplate.Proofs.Compile.Acceptance
import TextTemplate.Proofs.Compile.Blocks
import TextTemplate.Proofs.Compile.Bracketing
import TextTemplate.Proofs.Compile.Draft
import TextTemplate.Proofs.Compile.Emission
import TextTemplate.Proofs.Compile.Faults
import TextTemplate.Proofs.Compile.Levels
import TextTemplate.Proofs.Compile.Mirror
import TextTemplate.Proofs.Compile.Placement
import TextTemplate.Proofs.Compile.Refusal
import TextTemplate.Proofs.Compile.Serial
import TextTemplate.Proofs.Compile.Source
import TextTemplate.Proofs.Compile.Variables
import TextTemplate.Proofs.Cycles.Counting
import TextTemplate.Proofs.Cycles.Names
import TextTemplate.Proofs.Cycles.Renderings
import TextTemplate.Proofs.Cycles.Sharing
import TextTemplate.Proofs.Cycles.Tags
import TextTemplate.Proofs.Cycles.Turns
import TextTemplate.Proofs.Expression.Conditions
import TextTemplate.Proofs.Expression.Constants
import TextTemplate.Proofs.Expression.Literals
import TextTemplate.Proofs.Expression.Paths
import TextTemplate.Proofs.Expression.Pipeline
import TextTemplate.Proofs.Expression.Readers
import TextTemplate.Proofs.Filters.Numbers
import TextTemplate.Proofs.Grammar.Choice
import TextTemplate.Proofs.Grammar.Registration
import TextTemplate.Proofs.Grammar.Segmentation
import TextTemplate.Proofs.Likeness.Access
import TextTemplate.Proofs.Likeness.Apart
import TextTemplate.Proofs.Likeness.Basic
import TextTemplate.Proofs.Likeness.Calls
import TextTemplate.Proofs.Likeness.Computations
import TextTemplate.Proofs.Likeness.Execution
import TextTemplate.Proofs.Likeness.Filters
import TextTemplate.Proofs.Likeness.Iteration
import TextTemplate.Proofs.Likeness.Methods
import TextTemplate.Proofs.Likeness.Names
import TextTemplate.Proofs.Likeness.Reading
import TextTemplate.Proofs.Likeness.Restoring
import TextTemplate.Proofs.Likeness.Sharing
import TextTemplate.Proofs.Likeness.Stores
import TextTemplate.Proofs.Likeness.Values
import TextTemplate.Proofs.Loops.Rows
import TextTemplate.Proofs.Loops.Streams
import TextTemplate.Proofs.Outcome
import TextTemplate.Proofs.Place.Errors
import TextTemplate.Proofs.Place.Failures
import TextTemplate.Proofs.Place.Lines
import TextTemplate.Proofs.Place.Markers
import TextTemplate.Proofs.Place.Owners
import TextTemplate.Proofs.Run.Contexts
import TextTemplate.Proofs.Run.Descent
import TextTemplate.Proofs.Run.Frames
import TextTemplate.Proofs.Run.Layers
import TextTemplate.Proofs.Run.Steps
import TextTemplate.Proofs.Safety.Autoescape
import TextTemplate.Proofs.Safety.Calls
import TextTemplate.Proofs.Safety.Execution
import TextTemplate.Proofs.Safety.Expressions
import TextTemplate.Proofs.Safety.Filters
import TextTemplate.Proofs.Safety.Join
import TextTemplate.Proofs.Safety.Keeping
import TextTemplate.Proofs.Safety.Names
import TextTemplate.Proofs.Safety.Output
import TextTemplate.Proofs.Safety.Region
import TextTemplate.Proofs.Safety.Tame
import TextTemplate.Proofs.Safety.Values
import TextTemplate.Proofs.Scopes.Brackets
import TextTemplate.Proofs.Sorting.Failure
import TextTemplate.Proofs.Sorting.Naturality
import TextTemplate.Proofs.Sorting.Permutation
import TextTemplate.Proofs.Tree.Basic
import TextTemplate.Proofs.Tree.Code
import TextTemplate.Proofs.Tree.Compiling
import TextTemplate.Proofs.Tree.Evaluation
import TextTemplate.Proofs.Tree.Instructions
import TextTemplate.Proofs.Tree.Linking
import TextTemplate.Proofs.Tree.Parsing
import TextTemplate.Proofs.Tree.Running
import TextTemplate.Scopes.Basic
import TextTemplate.Scopes.Layers
import TextTemplate.Sorting.Merge
import TextTemplate.Sorting.Runs
import TextTemplate.Sorting.Search
import TextTemplate.Standard.Filters
import TextTemplate.Standard.Tags
import TextTemplate.Template
import TextTemplate.Template.Basic
import TextTemplate.Text.Blank
import TextTemplate.Text.Case
import TextTemplate.Text.CaseTable
import TextTemplate.Text.Constant
import TextTemplate.Text.Digit
import TextTemplate.Text.Line
import TextTemplate.Text.Markup
import TextTemplate.Text.Printable
import TextTemplate.Text.Quoted
import TextTemplate.Text.Unit
import TextTemplate.Token
import TextTemplate.Value.Access
import TextTemplate.Value.Arithmetic
import TextTemplate.Value.Basic
import TextTemplate.Value.Call
import TextTemplate.Value.Equality
import TextTemplate.Value.Iteration
import TextTemplate.Value.Order
import TextTemplate.Value.Written
