import JsSyntax.Ast.Basic
import JsSyntax.Ast.Dump
import JsSyntax.Ast.Json
import JsSyntax.Ast.Map
import JsSyntax.Ast.Node
import JsSyntax.Ast.Operator
import JsSyntax.Ast.Outline
import JsSyntax.Ast.Statements
import JsSyntax.Ast.Target
import JsSyntax.Command.Options
import JsSyntax.Command.Run
import JsSyntax.Decimal.Double
import JsSyntax.Decimal.Layout
import JsSyntax.Decimal.Numeral
import JsSyntax.Decimal.Shortest
import JsSyntax.Diagnostic
import JsSyntax.Dump.Basic
import JsSyntax.Dump.Printer
import JsSyntax.Json.Basic
import JsSyntax.Json.Printer
import JsSyntax.Log
import JsSyntax.Main
import JsSyntax.Parse.Budget
import JsSyntax.Parse.Deeper
import JsSyntax.Parse.Expression
import JsSyntax.Parse.Function
import JsSyntax.Parse.Loop
import JsSyntax.Parse.Member
import JsSyntax.Parse.Program
import JsSyntax.Parse.State
import JsSyntax.Parse.Statement
import JsSyntax.Proofs.Budget.Depth
import JsSyntax.Proofs.Budget.Within
import JsSyntax.Proofs.Concat
import JsSyntax.Proofs.Counting.Depth
import JsSyntax.Proofs.Counting.Script
import JsSyntax.Proofs.Counting.Scripted
import JsSyntax.Proofs.Excerpt
import JsSyntax.Proofs.Excerpt.Expression
import JsSyntax.Proofs.Excerpt.Nodes
import JsSyntax.Proofs.Excerpt.Recurs
import JsSyntax.Proofs.Excerpt.Routines
import JsSyntax.Proofs.Excerpt.Text
import JsSyntax.Proofs.Follow.Alignment
import JsSyntax.Proofs.Follow.Expression
import JsSyntax.Proofs.Follow.Function
import JsSyntax.Proofs.Follow.Loops
import JsSyntax.Proofs.Follow.Member
import JsSyntax.Proofs.Follow.Program
import JsSyntax.Proofs.Follow.Sequences
import JsSyntax.Proofs.Follow.Statement
import JsSyntax.Proofs.Follow.Steps
import JsSyntax.Proofs.Grammar.Derives
import JsSyntax.Proofs.Grammar.Phrases
import JsSyntax.Proofs.Grammar.Reading
import JsSyntax.Proofs.Grammar.Translate
import JsSyntax.Proofs.Json.Injective
import JsSyntax.Proofs.Json.Same
import JsSyntax.Proofs.Layout
import JsSyntax.Proofs.Limit
import JsSyntax.Proofs.Lines
import JsSyntax.Proofs.Located
import JsSyntax.Proofs.Logged
import JsSyntax.Proofs.Looping.Advances
import JsSyntax.Proofs.Looping.Code
import JsSyntax.Proofs.Looping.Coded
import JsSyntax.Proofs.Looping.Ends
import JsSyntax.Proofs.Looping.Program
import JsSyntax.Proofs.Map
import JsSyntax.Proofs.Members
import JsSyntax.Proofs.Nested.Parts
import JsSyntax.Proofs.Nested.Routines
import JsSyntax.Proofs.Nodes.Formed
import JsSyntax.Proofs.Nodes.Induction
import JsSyntax.Proofs.Nodes.Laid
import JsSyntax.Proofs.Nodes.Leaves
import JsSyntax.Proofs.Nodes.Roles
import JsSyntax.Proofs.Nodes.Spans
import JsSyntax.Proofs.Nodes.WellFormed
import JsSyntax.Proofs.Nodes.Written
import JsSyntax.Proofs.Numerals
import JsSyntax.Proofs.Parse.Gathers
import JsSyntax.Proofs.Parse.Gives
import JsSyntax.Proofs.Parse.Loops
import JsSyntax.Proofs.Parse.Moves
import JsSyntax.Proofs.Parse.Runs
import JsSyntax.Proofs.Parse.Steps
import JsSyntax.Proofs.Parse.Stretches
import JsSyntax.Proofs.Parse.Threads
import JsSyntax.Proofs.Parse.Tiling
import JsSyntax.Proofs.Progress
import JsSyntax.Proofs.Refusal
import JsSyntax.Proofs.Reuse
import JsSyntax.Proofs.RoundTrip.Classes
import JsSyntax.Proofs.RoundTrip.Consumes
import JsSyntax.Proofs.RoundTrip.Expression
import JsSyntax.Proofs.RoundTrip.Fails
import JsSyntax.Proofs.RoundTrip.Levels
import JsSyntax.Proofs.RoundTrip.Local
import JsSyntax.Proofs.RoundTrip.Loops
import JsSyntax.Proofs.RoundTrip.Members
import JsSyntax.Proofs.RoundTrip.Modifiers
import JsSyntax.Proofs.RoundTrip.Program
import JsSyntax.Proofs.RoundTrip.Runs
import JsSyntax.Proofs.RoundTrip.Spelling
import JsSyntax.Proofs.RoundTrip.Takes
import JsSyntax.Proofs.RoundTrip.Text
import JsSyntax.Proofs.RoundTrip.Tree
import JsSyntax.Proofs.Shallow
import JsSyntax.Proofs.Shallow.Nodes
import JsSyntax.Proofs.Shallow.Routines
import JsSyntax.Proofs.Slice
import JsSyntax.Proofs.Sound.Expression
import JsSyntax.Proofs.Sound.Function
import JsSyntax.Proofs.Sound.Member
import JsSyntax.Proofs.Sound.Moves
import JsSyntax.Proofs.Sound.Program
import JsSyntax.Proofs.Sound.Statement
import JsSyntax.Proofs.Target
import JsSyntax.Proofs.Token.Cursor
import JsSyntax.Proofs.Token.Lexes
import JsSyntax.Proofs.Token.Lossless
import JsSyntax.Proofs.Token.Munch
import JsSyntax.Proofs.Token.Rules
import JsSyntax.Proofs.Token.Splice
import JsSyntax.Proofs.Towers
import JsSyntax.Proofs.Towers.Routines
import JsSyntax.Proofs.Towers.Texts
import JsSyntax.Source.Cursor
import JsSyntax.Source.Position
import JsSyntax.Source.Span
import JsSyntax.Text.Blank
import JsSyntax.Text.CharTable
import JsSyntax.Text.Extending
import JsSyntax.Text.Ignorable
import JsSyntax.Text.Quoted
import JsSyntax.Text.Unprintable
import JsSyntax.Token.Basic
import JsSyntax.Token.Lexeme
import JsSyntax.Token.Tokenize
import JsSyntax.Token.Vocabulary
