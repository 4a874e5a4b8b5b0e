import Tablica.CommandLine.Files
import Tablica.CommandLine.Invocation
import Tablica.CommandLine.Options
import Tablica.CommandLine.Terminal
import Tablica.CommandLine.Usage
import Tablica.Configuration
import Tablica.Diagnostic
import Tablica.Execution.Console
import Tablica.Execution.Evaluation
import Tablica.Execution.Machine
import Tablica.Execution.Memory
import Tablica.Execution.Value
import Tablica.Keyword
import Tablica.Log
import Tablica.Main
import Tablica.Number
import Tablica.Operator
import Tablica.Proofs.CommandLine.Streams
import Tablica.Proofs.Descent.Agreement
import Tablica.Proofs.Descent.Blocks
import Tablica.Proofs.Descent.Expressions
import Tablica.Proofs.Descent.Nesting
import Tablica.Proofs.Descent.Parser
import Tablica.Proofs.Descent.Rounds
import Tablica.Proofs.Descent.Rows
import Tablica.Proofs.Descent.Statements
import Tablica.Proofs.Descent.Tokens
import Tablica.Proofs.Diagnostic.Echo
import Tablica.Proofs.Diagnostic.Underlining
import Tablica.Proofs.Execution.Actions
import Tablica.Proofs.Execution.Arithmetic
import Tablica.Proofs.Execution.Blocks
import Tablica.Proofs.Execution.Calls
import Tablica.Proofs.Execution.Cells
import Tablica.Proofs.Execution.Composition
import Tablica.Proofs.Execution.Consoles
import Tablica.Proofs.Execution.Contract
import Tablica.Proofs.Execution.Course
import Tablica.Proofs.Execution.Fuel
import Tablica.Proofs.Execution.Guard
import Tablica.Proofs.Execution.Iterators
import Tablica.Proofs.Execution.Keys
import Tablica.Proofs.Execution.Lines
import Tablica.Proofs.Execution.Literals
import Tablica.Proofs.Execution.Marks
import Tablica.Proofs.Execution.Procedures
import Tablica.Proofs.Execution.Removal
import Tablica.Proofs.Execution.Resolution
import Tablica.Proofs.Execution.Rounds
import Tablica.Proofs.Execution.Scoping
import Tablica.Proofs.Execution.Shadowing
import Tablica.Proofs.Execution.Soundness
import Tablica.Proofs.Execution.Stopping
import Tablica.Proofs.Source.Edits
import Tablica.Proofs.Syntax.BlankLines
import Tablica.Proofs.Syntax.Climbing
import Tablica.Proofs.Syntax.Composition
import Tablica.Proofs.Syntax.Equality
import Tablica.Proofs.Syntax.Faults
import Tablica.Proofs.Syntax.Forms
import Tablica.Proofs.Syntax.Grammar
import Tablica.Proofs.Syntax.Indentation
import Tablica.Proofs.Syntax.Layers
import Tablica.Proofs.Syntax.Layout
import Tablica.Proofs.Syntax.Likeness
import Tablica.Proofs.Syntax.Lookahead
import Tablica.Proofs.Syntax.Positions
import Tablica.Proofs.Syntax.Program
import Tablica.Proofs.Syntax.Reading
import Tablica.Proofs.Syntax.Reindentation
import Tablica.Proofs.Syntax.Relocation
import Tablica.Proofs.Syntax.Rendering
import Tablica.Proofs.Syntax.Sameness
import Tablica.Proofs.Syntax.WellFormed
import Tablica.Proofs.Text.Trimming
import Tablica.Proofs.Token.Comments
import Tablica.Proofs.Token.Respelling
import Tablica.Proofs.Token.Rules
import Tablica.Proofs.Token.Spelling
import Tablica.Proofs.Token.Tiling
import Tablica.Source.Cursor
import Tablica.Source.Line
import Tablica.Syntax.Expression
import Tablica.Syntax.Fault
import Tablica.Syntax.Indentation
import Tablica.Syntax.Node
import Tablica.Syntax.Operand
import Tablica.Syntax.Outline
import Tablica.Syntax.Statement
import Tablica.Text.Blank
import Tablica.Text.ControlSequence
import Tablica.Text.Letter
import Tablica.Text.Printable
import Tablica.Text.Quoted
import Tablica.Text.Ranges
import Tablica.Text.Similarity
import Tablica.Text.Styled
import Tablica.Token.Basic
import Tablica.Token.Lexeme
import Tablica.Token.Reading
import Tablica.Toml.Document
import Tablica.Toml.Reading
import Tablica.Toml.Scalar
import Tablica.Proofs.Execution.Numerals
import Tablica.Proofs.Token.RangeSymbol
