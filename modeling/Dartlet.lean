import Dartlet.Action
import Dartlet.Arithmetic
import Dartlet.CommandLine
import Dartlet.Equality
import Dartlet.Eval.Call
import Dartlet.Eval.Collection
import Dartlet.Eval.Engine
import Dartlet.Eval.Expression
import Dartlet.Eval.Interpreter
import Dartlet.Eval.Place
import Dartlet.Eval.Statement
import Dartlet.Fault
import Dartlet.Host.Conversion
import Dartlet.Host.Function
import Dartlet.Host.Globals
import Dartlet.Host.Object
import Dartlet.Host.Reflection
import Dartlet.Host.Signature
import Dartlet.Main
import Dartlet.Member
import Dartlet.Members.Arguments
import Dartlet.Members.Dispatch
import Dartlet.Members.List
import Dartlet.Members.Map
import Dartlet.Members.Number
import Dartlet.Members.Sequence
import Dartlet.Members.Set
import Dartlet.Members.Sort
import Dartlet.Members.Text
import Dartlet.Members.Type
import Dartlet.Number.Binary
import Dartlet.Number.Compare
import Dartlet.Number.Fixed
import Dartlet.Number.Layout
import Dartlet.Number.Parse
import Dartlet.Number.Read
import Dartlet.Number.Shortest
import Dartlet.Proofs.Collections.Callbacks
import Dartlet.Proofs.Collections.Equality
import Dartlet.Proofs.Collections.Failures
import Dartlet.Proofs.Collections.Literals
import Dartlet.Proofs.Collections.Maps
import Dartlet.Proofs.Collections.Orders
import Dartlet.Proofs.Collections.Permuting
import Dartlet.Proofs.Collections.Sameness
import Dartlet.Proofs.Collections.Sets
import Dartlet.Proofs.Collections.Sorting
import Dartlet.Proofs.Collections.Spreads
import Dartlet.Proofs.Collections.Staging
import Dartlet.Proofs.Collections.Texts
import Dartlet.Proofs.Effects.Ensures
import Dartlet.Proofs.Effects.Host
import Dartlet.Proofs.Effects.Keys
import Dartlet.Proofs.Effects.Members
import Dartlet.Proofs.Effects.Stable
import Dartlet.Proofs.Evaluation.Abbreviations
import Dartlet.Proofs.Evaluation.Adjacent
import Dartlet.Proofs.Evaluation.Attempts
import Dartlet.Proofs.Evaluation.Closed
import Dartlet.Proofs.Evaluation.Coverage
import Dartlet.Proofs.Evaluation.Discipline
import Dartlet.Proofs.Evaluation.ElementLoops
import Dartlet.Proofs.Evaluation.Endings
import Dartlet.Proofs.Evaluation.Escapes
import Dartlet.Proofs.Evaluation.Expressions
import Dartlet.Proofs.Evaluation.Interference
import Dartlet.Proofs.Evaluation.Interpolations
import Dartlet.Proofs.Evaluation.Invocations
import Dartlet.Proofs.Evaluation.JumpSafety
import Dartlet.Proofs.Evaluation.Keys
import Dartlet.Proofs.Evaluation.Lasting
import Dartlet.Proofs.Evaluation.Listed
import Dartlet.Proofs.Evaluation.Loops
import Dartlet.Proofs.Evaluation.MoreLevels
import Dartlet.Proofs.Evaluation.NearestBindings
import Dartlet.Proofs.Evaluation.Nesting
import Dartlet.Proofs.Evaluation.Operands
import Dartlet.Proofs.Evaluation.Places
import Dartlet.Proofs.Evaluation.Policies
import Dartlet.Proofs.Evaluation.Rethrow
import Dartlet.Proofs.Evaluation.Runs
import Dartlet.Proofs.Evaluation.Scopes
import Dartlet.Proofs.Evaluation.Semicolons
import Dartlet.Proofs.Evaluation.Sessions
import Dartlet.Proofs.Evaluation.Statements
import Dartlet.Proofs.Evaluation.TearOffs
import Dartlet.Proofs.Grammar.Acceptance
import Dartlet.Proofs.Grammar.Brackets
import Dartlet.Proofs.Grammar.Charts
import Dartlet.Proofs.Grammar.Closure
import Dartlet.Proofs.Grammar.Contexts
import Dartlet.Proofs.Grammar.Derivability
import Dartlet.Proofs.Grammar.Flattening
import Dartlet.Proofs.Grammar.Outlines
import Dartlet.Proofs.Grammar.Phrases
import Dartlet.Proofs.Grammar.Reading
import Dartlet.Proofs.Grammar.Table
import Dartlet.Proofs.Grammar.Trees
import Dartlet.Proofs.Host.Content
import Dartlet.Proofs.Host.Echo
import Dartlet.Proofs.Host.Handover
import Dartlet.Proofs.Host.Takeover
import Dartlet.Proofs.Numbers.Division
import Dartlet.Proofs.Numbers.Doubles
import Dartlet.Proofs.Numbers.FixedPlaces
import Dartlet.Proofs.Numbers.IntegerTexts
import Dartlet.Proofs.Parallel.Actions
import Dartlet.Proofs.Parallel.Calls
import Dartlet.Proofs.Parallel.Changes
import Dartlet.Proofs.Parallel.Collections
import Dartlet.Proofs.Parallel.Expressions
import Dartlet.Proofs.Parallel.Host
import Dartlet.Proofs.Parallel.Limits
import Dartlet.Proofs.Parallel.Members
import Dartlet.Proofs.Parallel.Moved
import Dartlet.Proofs.Parallel.Operators
import Dartlet.Proofs.Parallel.Reading
import Dartlet.Proofs.Parallel.Runs
import Dartlet.Proofs.Parallel.Self
import Dartlet.Proofs.Parallel.Sequences
import Dartlet.Proofs.Parallel.Shift
import Dartlet.Proofs.Parallel.Statements
import Dartlet.Proofs.Parallel.Stores
import Dartlet.Proofs.Parallel.Values
import Dartlet.Proofs.Program.Accepted
import Dartlet.Proofs.Program.BuiltExpressions
import Dartlet.Proofs.Program.BuiltPlaceless
import Dartlet.Proofs.Program.BuiltStatements
import Dartlet.Proofs.Program.BuiltTraits
import Dartlet.Proofs.Program.Decoding
import Dartlet.Proofs.Program.Depth
import Dartlet.Proofs.Program.DerivedPlaceless
import Dartlet.Proofs.Program.Embedded
import Dartlet.Proofs.Program.Jumps
import Dartlet.Proofs.Program.Kinds
import Dartlet.Proofs.Program.Layout
import Dartlet.Proofs.Program.Levels
import Dartlet.Proofs.Program.Lexemes
import Dartlet.Proofs.Program.Lexicon
import Dartlet.Proofs.Program.Lines
import Dartlet.Proofs.Program.Literals
import Dartlet.Proofs.Program.Locations
import Dartlet.Proofs.Program.Meanings
import Dartlet.Proofs.Program.Mentions
import Dartlet.Proofs.Program.Names
import Dartlet.Proofs.Program.Node
import Dartlet.Proofs.Program.OneLine
import Dartlet.Proofs.Program.Partition
import Dartlet.Proofs.Program.Pieces
import Dartlet.Proofs.Program.Placeless
import Dartlet.Proofs.Program.Printing
import Dartlet.Proofs.Program.Readings
import Dartlet.Proofs.Program.Regular
import Dartlet.Proofs.Program.RoundTrip
import Dartlet.Proofs.Program.Sentences
import Dartlet.Proofs.Program.Shapes
import Dartlet.Proofs.Program.Spelling
import Dartlet.Proofs.Program.Templates
import Dartlet.Proofs.Program.Traits
import Dartlet.Proofs.Program.Words
import Dartlet.Proofs.Texts.Patterns
import Dartlet.Proofs.Texts.Pieces
import Dartlet.Proofs.Texts.Searches
import Dartlet.Render
import Dartlet.Run
import Dartlet.Scope
import Dartlet.Session
import Dartlet.Store
import Dartlet.Syntax.Assembly
import Dartlet.Syntax.Chart
import Dartlet.Syntax.Derivation
import Dartlet.Syntax.Error
import Dartlet.Syntax.Grammar
import Dartlet.Syntax.Jumps
import Dartlet.Syntax.Lexer
import Dartlet.Syntax.Operator
import Dartlet.Syntax.Parse
import Dartlet.Syntax.Position
import Dartlet.Syntax.Program
import Dartlet.Syntax.Quotation
import Dartlet.Syntax.Terminal
import Dartlet.Syntax.Token
import Dartlet.Text.Blank
import Dartlet.Text.Case
import Dartlet.Text.Digit
import Dartlet.Text.Pattern
import Dartlet.Text.Printable
import Dartlet.Text.Quoted
import Dartlet.Text.Search
import Dartlet.Value
