import Nesting.Text.Position
import Nesting.Text.Place
import Nesting.Text.CharTable
import Nesting.Text.CharClass
import Nesting.Text.CharSet
import Nesting.Text.Quoted
import Nesting.Text.Palette
import Nesting.Token
import Nesting.Tree.Basic
import Nesting.Tree.Build
import Nesting.Tree.Dump
import Nesting.Tree.Json
import Nesting.Cursor
import Nesting.Editor
import Nesting.Regex.Basic
import Nesting.Regex.Fault
import Nesting.Regex.Match
import Nesting.Regex.Parser
import Nesting.Regex.Preference
import Nesting.Regex.Size
import Nesting.Regex.Trail
import Nesting.Json.Double
import Nesting.Json.Basic
import Nesting.Json.Reader
import Nesting.Json.Decode
import Nesting.Grammar
import Nesting.Grammar.Json
import Nesting.Lexer.Rule
import Nesting.Lexer.Order
import Nesting.Lexer.Table
import Nesting.Lexer.Tokenize
import Nesting.Query.Pattern
import Nesting.Query.Matches
import Nesting.Query.Step
import Nesting.Query.Basic
import Nesting.Query.Trace
import Nesting.Language.Numbers
import Nesting.Language.Builtin
import Nesting.Language.Basic
import Nesting.Language.Suggestion
import Nesting.CommandLine.Arguments
import Nesting.CommandLine.Basic
import Nesting.Main
import Nesting.Proofs.Except
import Nesting.Proofs.Text.Place
import Nesting.Proofs.Text.Position
import Nesting.Proofs.Text.Quoted
import Nesting.Proofs.Text.Palette
import Nesting.Proofs.Regex.Ends
import Nesting.Proofs.Query.Stream
import Nesting.Proofs.Lexer.Accepted
import Nesting.Proofs.Lexer.Table
import Nesting.Proofs.Lexer.Step
import Nesting.Proofs.Lexer.Tiling
import Nesting.Proofs.Tree.Levels
import Nesting.Proofs.Tree.Values
import Nesting.Proofs.Tree.Leaves
import Nesting.Proofs.Lexer.Strings
import Nesting.Proofs.Tree.Trees
import Nesting.Proofs.StringLevels
import Nesting.Proofs.StringEnds
import Nesting.Proofs.Tree.Failure
import Nesting.Proofs.Tree.Dissolve
import Nesting.Proofs.Cursor.Moves
import Nesting.Proofs.Cursor.Order
import Nesting.Proofs.Query.Progress
import Nesting.Proofs.Query.Search
import Nesting.Proofs.Query.Termination
import Nesting.Proofs.Tree.Paths
import Nesting.Proofs.Cursor.Edits
import Nesting.Proofs.Tree.WellFormed
import Nesting.Proofs.Tree.ForceClosed
import Nesting.Proofs.Tree.OwnedLeaves
import Nesting.Proofs.Tree.Positions
import Nesting.Proofs.Tree.Coverage
import Nesting.Proofs.Lexer.Order
import Nesting.Proofs.Lexer.Runs
import Nesting.Proofs.Lexer.Closed
import Nesting.Proofs.Lexer.Sorting
import Nesting.Proofs.Lexer.Longest
import Nesting.Proofs.Lexer.TemplateCode
import Nesting.Proofs.Lexer.Conflicts
import Nesting.Proofs.Lexer.Delimiters
import Nesting.Proofs.Tree.Rebuild
import Nesting.Proofs.Query.Simulation
import Nesting.Proofs.Query.Single
import Nesting.Proofs.Query.Contexts
import Nesting.Proofs.Query.Ways
import Nesting.Proofs.Cursor.Layout
import Nesting.Proofs.Query.Layout
import Nesting.Proofs.Json.Spelling
import Nesting.Proofs.Json.Writing
import Nesting.Proofs.Json.Decoding
import Nesting.Proofs.Json.RoundTrip
import Nesting.Proofs.Cursor.Identity
import Nesting.Proofs.Query.Repetition
import Nesting.Proofs.Tree.Indentation
import Nesting.Proofs.Tree.BlankLines
import Nesting.Proofs.Tree.LeadingComments
import Nesting.Proofs.Lexer.References
import Nesting.Proofs.Lexer.ReferenceCuts
import Nesting.Proofs.LeafPositions
import Nesting.Proofs.Lexer.Escapes
import Nesting.Proofs.Query.StringPieces
import Nesting.Proofs.Query.Nested
import Nesting.Proofs.Query.Traces
import Nesting.Proofs.Colours
import Nesting.Proofs.Tree.MadeLeaves
import Nesting.Proofs.Tree.Dump
import Nesting.Proofs.Lexer.Chunks
import Nesting.Proofs.Language.Suggestion
import Nesting.Proofs.Regex.Reached
import Nesting.Proofs.Regex.Words
import Nesting.Proofs.Regex.LongestMatch
import Nesting.Proofs.Language.Numbers
import Nesting.Proofs.Text.LineEndings
import Nesting.Proofs.Regex.LineEndings
import Nesting.Proofs.Lexer.EndOfLine
import Nesting.Proofs.Lexer.LineRules
import Nesting.Proofs.Lexer.LineEndings
import Nesting.Proofs.Tree.Settled
import Nesting.Proofs.Tree.LineEndings
import Nesting.Proofs.LineEndings
