import CanonicalSql.Binary64.Basic
import CanonicalSql.Binary64.Decimal
import CanonicalSql.Binary64.Format
import CanonicalSql.Binary64.Shortest
import CanonicalSql.Canonical.DataType
import CanonicalSql.Canonical.Expr
import CanonicalSql.Canonical.Piece
import CanonicalSql.Canonical.Statement
import CanonicalSql.CommandLine.Files
import CanonicalSql.CommandLine.Log
import CanonicalSql.CommandLine.Options
import CanonicalSql.CommandLine.Outcome
import CanonicalSql.Depth
import CanonicalSql.Grammar.Basic
import CanonicalSql.Grammar.DataType
import CanonicalSql.Grammar.Definition
import CanonicalSql.Grammar.Expr
import CanonicalSql.Grammar.Failure
import CanonicalSql.Grammar.Grouping
import CanonicalSql.Grammar.Phrases
import CanonicalSql.Grammar.Precedence
import CanonicalSql.Grammar.Query
import CanonicalSql.Grammar.Source
import CanonicalSql.Grammar.Statement
import CanonicalSql.Grammar.Tail
import CanonicalSql.Grammar.Window
import CanonicalSql.Keyword
import CanonicalSql.Main
import CanonicalSql.Name
import CanonicalSql.Outline
import CanonicalSql.Proofs.Columns
import CanonicalSql.Proofs.Course.Basic
import CanonicalSql.Proofs.Course.DataType
import CanonicalSql.Proofs.Course.Expr
import CanonicalSql.Proofs.Course.Query
import CanonicalSql.Proofs.Course.Statement
import CanonicalSql.Proofs.Course.Stream
import CanonicalSql.Proofs.Course.Tail
import CanonicalSql.Proofs.Defaults
import CanonicalSql.Proofs.DepthLimit
import CanonicalSql.Proofs.Distinct.Basic
import CanonicalSql.Proofs.Distinct.Definition
import CanonicalSql.Proofs.Distinct.Expr
import CanonicalSql.Proofs.Distinct.Items
import CanonicalSql.Proofs.Distinct.Nesting
import CanonicalSql.Proofs.Distinct.Projection
import CanonicalSql.Proofs.Distinct.Query
import CanonicalSql.Proofs.Distinct.Source
import CanonicalSql.Proofs.Distinct.Statement
import CanonicalSql.Proofs.Distinct.Tree
import CanonicalSql.Proofs.Elsewhere.Basic
import CanonicalSql.Proofs.Elsewhere.Definition
import CanonicalSql.Proofs.Elsewhere.Expr
import CanonicalSql.Proofs.Elsewhere.Query
import CanonicalSql.Proofs.Elsewhere.Rounds
import CanonicalSql.Proofs.Elsewhere.Statement
import CanonicalSql.Proofs.Elsewhere.Tail
import CanonicalSql.Proofs.Elsewhere.Whole
import CanonicalSql.Proofs.Erase
import CanonicalSql.Proofs.EraseKeeps
import CanonicalSql.Proofs.Extent
import CanonicalSql.Proofs.Formed
import CanonicalSql.Proofs.Groupings
import CanonicalSql.Proofs.Height
import CanonicalSql.Proofs.Image.Basic
import CanonicalSql.Proofs.Image.DataType
import CanonicalSql.Proofs.Image.Expr
import CanonicalSql.Proofs.Image.Levels
import CanonicalSql.Proofs.Image.Query
import CanonicalSql.Proofs.Image.Statement
import CanonicalSql.Proofs.Image.Tail
import CanonicalSql.Proofs.Joins
import CanonicalSql.Proofs.Layout
import CanonicalSql.Proofs.Lexical
import CanonicalSql.Proofs.Lexing.Canonical
import CanonicalSql.Proofs.Lexing.Casing
import CanonicalSql.Proofs.Lexing.Decoding
import CanonicalSql.Proofs.Lexing.Enclosed
import CanonicalSql.Proofs.Lexing.Escapes
import CanonicalSql.Proofs.Lexing.Layout
import CanonicalSql.Proofs.Lexing.Numerals
import CanonicalSql.Proofs.Lexing.Shortest
import CanonicalSql.Proofs.Lexing.Size
import CanonicalSql.Proofs.Lexing.Spelling
import CanonicalSql.Proofs.Lexing.Splits
import CanonicalSql.Proofs.Lexing.Steady
import CanonicalSql.Proofs.Lexing.Written
import CanonicalSql.Proofs.Likeness
import CanonicalSql.Proofs.Limits
import CanonicalSql.Proofs.Lockstep.Basic
import CanonicalSql.Proofs.Lockstep.Expr
import CanonicalSql.Proofs.Lockstep.Query
import CanonicalSql.Proofs.Lockstep.Statement
import CanonicalSql.Proofs.Places
import CanonicalSql.Proofs.Precedence
import CanonicalSql.Proofs.Readable
import CanonicalSql.Proofs.Reading.Basic
import CanonicalSql.Proofs.Reading.DataType
import CanonicalSql.Proofs.Reading.Definition
import CanonicalSql.Proofs.Reading.Expr
import CanonicalSql.Proofs.Reading.Grouping
import CanonicalSql.Proofs.Reading.Names
import CanonicalSql.Proofs.Reading.Phrases
import CanonicalSql.Proofs.Reading.Primary
import CanonicalSql.Proofs.Reading.Query
import CanonicalSql.Proofs.Reading.Rounds
import CanonicalSql.Proofs.Reading.Source
import CanonicalSql.Proofs.Reading.Spelled
import CanonicalSql.Proofs.Reading.Statement
import CanonicalSql.Proofs.Reading.Tail
import CanonicalSql.Proofs.Reading.Tokens
import CanonicalSql.Proofs.Reading.Window
import CanonicalSql.Proofs.RoundTrip
import CanonicalSql.Proofs.SetOperations
import CanonicalSql.Proofs.Subqueries
import CanonicalSql.Proofs.Termination
import CanonicalSql.Proofs.Traversal
import CanonicalSql.Proofs.Traversal.Addresses
import CanonicalSql.Proofs.Traversal.Order
import CanonicalSql.Proofs.Traversal.Parts
import CanonicalSql.Proofs.TypeText
import CanonicalSql.Proofs.Validation
import CanonicalSql.Record
import CanonicalSql.Record.DataType
import CanonicalSql.Record.Expr
import CanonicalSql.Record.Statement
import CanonicalSql.Span
import CanonicalSql.Token.Error
import CanonicalSql.Token.Kind
import CanonicalSql.Token.Lexer
import CanonicalSql.Token.Quoted
import CanonicalSql.Token.Scan
import CanonicalSql.Tree.Alike
import CanonicalSql.Tree.Choice
import CanonicalSql.Tree.DataType
import CanonicalSql.Tree.Expr
import CanonicalSql.Tree.Label
import CanonicalSql.Tree.Statement
import CanonicalSql.Unicode.Alphabetic
import CanonicalSql.Unicode.Blank
import CanonicalSql.Unicode.Casing
import CanonicalSql.Unicode.Numeric
import CanonicalSql.Unicode.Ranges
import CanonicalSql.Validity
import CanonicalSql.Proofs.Failing.Basic
import CanonicalSql.Proofs.Failing.Chained
import CanonicalSql.Proofs.Failing.Query
import CanonicalSql.Proofs.Failing.Statement
import CanonicalSql.Proofs.Chaining
import CanonicalSql.Proofs.Lexing.Progress
import CanonicalSql.Proofs.Lexing.Tiling
import CanonicalSql.Proofs.Counter
import CanonicalSql.Proofs.Locality
