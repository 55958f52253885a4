import ActionTree.Action
import ActionTree.Action.Tree
import ActionTree.CallStack
import ActionTree.Condition
import ActionTree.Config
import ActionTree.Config.Toml
import ActionTree.Convert
import ActionTree.Error
import ActionTree.Evaluation.Basic
import ActionTree.Evaluation.Direct
import ActionTree.Evaluation.Machine
import ActionTree.Execution
import ActionTree.Execution.Basic
import ActionTree.Execution.Block
import ActionTree.Execution.Call
import ActionTree.Execution.Loop
import ActionTree.Expansion
import ActionTree.Expr
import ActionTree.ExprCache
import ActionTree.Function
import ActionTree.Member
import ActionTree.Name
import ActionTree.Notation.Lexer
import ActionTree.Notation.Literal
import ActionTree.Notation.Multi
import ActionTree.Notation.Parser
import ActionTree.Notation.Token
import ActionTree.Number.Binary
import ActionTree.Number.Decimal.Arithmetic
import ActionTree.Number.Decimal.Basic
import ActionTree.Number.Decimal.Conversion
import ActionTree.Number.Integer
import ActionTree.Number.Numeral
import ActionTree.Number.Power
import ActionTree.Number.Shortest
import ActionTree.Operator
import ActionTree.Output
import ActionTree.Pattern
import ActionTree.Pattern.Glob
import ActionTree.Pattern.Regex.Basic
import ActionTree.Pattern.Regex.Parser
import ActionTree.Pattern.Regex.Program
import ActionTree.Pattern.Regex.Property
import ActionTree.Pattern.Regex.Replacement
import ActionTree.Pattern.Substring
import ActionTree.Preparation
import ActionTree.Session
import ActionTree.Session.Lookup
import ActionTree.Session.Scope
import ActionTree.Store
import ActionTree.Text.Blank
import ActionTree.Text.Case
import ActionTree.Text.Category
import ActionTree.Text.Letter
import ActionTree.Text.Property
import ActionTree.Text.Quoted
import ActionTree.Text.Script
import ActionTree.Text.Search
import ActionTree.Text.WordChar
import ActionTree.Transform
import ActionTree.Value
import ActionTree.ValueType
import ActionTree.Proofs.Evaluation.Related
import ActionTree.Notation.Printer
import ActionTree.Proofs.Store
import ActionTree.Proofs.Session.Overlay
import ActionTree.Proofs.Evaluation.Machine
import ActionTree.Proofs.Execution.Noninterference
import ActionTree.Proofs.Session.Related
import ActionTree.Proofs.Execution.Related
import ActionTree.Proofs.Execution.Signals
import ActionTree.Proofs.Execution.Effect
import ActionTree.Proofs.Execution.Frame
import ActionTree.Proofs.Execution.Termination
import ActionTree.Proofs.Execution.Cleanup
import ActionTree.Proofs.Execution.Isolation
import ActionTree.Proofs.Notation.RoundTrip
import ActionTree.Proofs.ExprCache
import ActionTree.Proofs.Execution.Caching
import ActionTree.Proofs.Session.Nesting
import ActionTree.Proofs.Execution.Work
import ActionTree.Proofs.Execution.Decomposition
import ActionTree.Proofs.Execution.Course
import ActionTree.Proofs.Execution.Watch
import ActionTree.Proofs.Execution.Recursion
import ActionTree.Proofs.Execution.Steps
import ActionTree.Proofs.Notation.Scanning
import ActionTree.Proofs.Notation.Within
import ActionTree.Proofs.Notation.Beside
import ActionTree.Proofs.Notation.Closing
import ActionTree.Proofs.Notation.Delimited
import ActionTree.Proofs.Expansion
import ActionTree.Proofs.Expansion.Escaping
import ActionTree.Proofs.Notation.Staying
import ActionTree.Proofs.Notation.Parentheses
import ActionTree.Proofs.Evaluation.Misreading
import ActionTree.Proofs.Session.Syntax
import ActionTree.Proofs.Execution.Origin
import ActionTree.Proofs.Execution.Syntax
import ActionTree.Proofs.Store.Refinement
import ActionTree.Proofs.Notation.Enclosed
import ActionTree.Proofs.Notation.Builtin
import ActionTree.Proofs.Notation.Segments
import ActionTree.Proofs.Execution.Log
import ActionTree.Proofs.Execution.Passage
import ActionTree.Proofs.Execution.Unwinding
import ActionTree.Proofs.Execution.Accounts
import ActionTree.Proofs.Execution.Handling
import ActionTree.Proofs.Execution.Traces
import ActionTree.Proofs.Number.Float
import ActionTree.Proofs.Number.Narrowing
import ActionTree.Proofs.Number.Integer
import ActionTree.Proofs.Operator.Arithmetic
import ActionTree.Proofs.Operator.Shift
import ActionTree.Proofs.Conversion
import ActionTree.Proofs.Position
import ActionTree.Proofs.Pattern.Glob
import ActionTree.Proofs.Comparison
import ActionTree.Proofs.Execution.Limits
import ActionTree.Proofs.Evaluation.Writes
import ActionTree.Proofs.Session.Assignment
import ActionTree.Proofs.Execution.Arguments
import ActionTree.Proofs.Execution.Binding
import ActionTree.Proofs.Text.Case
import ActionTree.Proofs.Execution.Parameters
import ActionTree.Proofs.Turns
import ActionTree.Proofs.Traversal
import ActionTree.Proofs.Execution.Loop
import ActionTree.Proofs.Notation.Integer
import ActionTree.Proofs.Session.Numerals
import ActionTree.Proofs.Conversion.Numeral
import ActionTree.Proofs.Conversion.Legible
import ActionTree.Proofs.Notation.Quoted
import ActionTree.Proofs.Notation.Faults
import ActionTree.Proofs.Notation.Errors
import ActionTree.Proofs.Notation.Lookahead
import ActionTree.Proofs.Text.Search
import ActionTree.Proofs.Text.Lines
import ActionTree.Proofs.Text.Trim
import ActionTree.Proofs.Text.Cut
import ActionTree.Proofs.Pattern.Search
import ActionTree.Proofs.Pattern.Substring
import ActionTree.Proofs.Transform
import ActionTree.Proofs.ExprCache.Sharing
import ActionTree.Proofs.Member
import ActionTree.Proofs.Execution.Deeds
import ActionTree.Proofs.Condition
import ActionTree.Proofs.Execution.Condition
