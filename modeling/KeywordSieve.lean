import KeywordSieve.Query.Notice
import KeywordSieve.Verdict
import KeywordSieve.Value
import KeywordSieve.Number.Integer
import KeywordSieve.Feed.Item
import KeywordSieve.Yaml.Token
import KeywordSieve.Yaml.Token.Scalar
import KeywordSieve.Yaml.Token.Lexer
import KeywordSieve.Yaml.Node
import KeywordSieve.Yaml.Value
import KeywordSieve.Files
import KeywordSieve.Document
import KeywordSieve.Feed.Listing
import KeywordSieve.Settings.Load
import KeywordSieve.Json.Basic
import KeywordSieve.Json.Reader
import KeywordSieve.Log.Record
import KeywordSieve.Log.Line
import KeywordSieve.Log.Session
import KeywordSieve.Run
import KeywordSieve.Cli.Command
import KeywordSieve.Cli.Usage
import KeywordSieve.Main
import KeywordSieve.Proofs.Trimming
import KeywordSieve.Proofs.Folding
import KeywordSieve.Proofs.NormalForm
import KeywordSieve.Proofs.Constructs
import KeywordSieve.Proofs.Reading
import KeywordSieve.Proofs.Tiling
import KeywordSieve.Proofs.Passes
import KeywordSieve.Proofs.Clauses
import KeywordSieve.Proofs.Explanation
import KeywordSieve.Proofs.Acceptance
import KeywordSieve.Proofs.Barriers
import KeywordSieve.Proofs.Joining
import KeywordSieve.Proofs.Isolation
import KeywordSieve.Proofs.Letters
import KeywordSieve.Proofs.Monotone
import KeywordSieve.Proofs.Verbatim
import KeywordSieve.Proofs.Unclosed
import KeywordSieve.Proofs.Rendering
import KeywordSieve.Proofs.SingleLine
import KeywordSieve.Proofs.Scheduling
import KeywordSieve.Proofs.Accounting
import KeywordSieve.Proofs.Output
import KeywordSieve.Proofs.Resolving
import KeywordSieve.Proofs.Command
import KeywordSieve.Proofs.Undecodable
import KeywordSieve.Proofs.Crashes
import KeywordSieve.Proofs.Encoding
import KeywordSieve.Proofs.Loading
import KeywordSieve.Proofs.Fields
import KeywordSieve.Proofs.Moves
import KeywordSieve.Proofs.Restoring
import KeywordSieve.Proofs.Days
import KeywordSieve.Proofs.Stamps
import KeywordSieve.Proofs.Timeline
import KeywordSieve.Proofs.Scalars
import KeywordSieve.Proofs.Entries
import KeywordSieve.Proofs.Configuring
import KeywordSieve.Proofs.Tracing
import KeywordSieve.Proofs.Success
import KeywordSieve.Proofs.Identity
import KeywordSieve.Proofs.Places
import KeywordSieve.Proofs.Decoding
import KeywordSieve.Proofs.Formless
import KeywordSieve.Proofs.Sources
import KeywordSieve.Proofs.Pairs
import KeywordSieve.Proofs.Sorting
import KeywordSieve.Proofs.Sections
import KeywordSieve.Proofs.Noticing
import KeywordSieve.Proofs.Bounds
import KeywordSieve.Proofs.Precedence
import KeywordSieve.Proofs.Unambiguous
import KeywordSieve.Proofs.Searching
import KeywordSieve.Proofs.Quoting
import KeywordSieve.Proofs.Reasons
import KeywordSieve.Proofs.Rationale
import KeywordSieve.Proofs.Cutting
import KeywordSieve.Proofs.Layers
import KeywordSieve.Json.Written
import KeywordSieve.Proofs.Fitting
import KeywordSieve.Proofs.Scanning
import KeywordSieve.Proofs.Numerals
import KeywordSieve.Proofs.Forms
import KeywordSieve.Proofs.Fetching
import KeywordSieve.Proofs.Passing
import KeywordSieve.Proofs.Lexing
import KeywordSieve.Proofs.Denoting
import KeywordSieve.Proofs.Composing
import KeywordSieve.Proofs.Spelling
import KeywordSieve.Proofs.Interchange
