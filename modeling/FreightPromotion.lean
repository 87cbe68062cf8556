import FreightPromotion.Client
import FreightPromotion.Command
import FreightPromotion.CommandLine.Complaint
import FreightPromotion.CommandLine.Count
import FreightPromotion.CommandLine.Help
import FreightPromotion.CommandLine.Reading
import FreightPromotion.CommandLine.Verb
import FreightPromotion.Deadline
import FreightPromotion.Decimal.Layout
import FreightPromotion.Decimal.Rounded
import FreightPromotion.Decimal.Shortest
import FreightPromotion.Environment
import FreightPromotion.Failure
import FreightPromotion.Files.Path
import FreightPromotion.Files.Tree
import FreightPromotion.Format
import FreightPromotion.Http.Host
import FreightPromotion.Http.Network
import FreightPromotion.Http.Post
import FreightPromotion.Http.Status
import FreightPromotion.Http.Url
import FreightPromotion.Http.User
import FreightPromotion.Http.Wire
import FreightPromotion.Json.Fault
import FreightPromotion.Json.Lexeme
import FreightPromotion.Json.Printer
import FreightPromotion.Json.Reader
import FreightPromotion.Json.Skipped
import FreightPromotion.Json.Value
import FreightPromotion.Log
import FreightPromotion.LogFilter
import FreightPromotion.LogFilter.Directive
import FreightPromotion.LogFilter.Layout
import FreightPromotion.LogFilter.Pattern
import FreightPromotion.LogFilter.Threshold
import FreightPromotion.Main
import FreightPromotion.Options
import FreightPromotion.Outcome
import FreightPromotion.Output
import FreightPromotion.Program
import FreightPromotion.Promotion
import FreightPromotion.Proofs.Addresses
import FreightPromotion.Proofs.Attempts
import FreightPromotion.Proofs.Carriage
import FreightPromotion.Proofs.Changes
import FreightPromotion.Proofs.Classification
import FreightPromotion.Proofs.CommandLine.Alternatives
import FreightPromotion.Proofs.CommandLine.Spelling
import FreightPromotion.Proofs.CompactDocuments
import FreightPromotion.Proofs.Decimal.Shortest
import FreightPromotion.Proofs.Documents
import FreightPromotion.Proofs.Exchange
import FreightPromotion.Proofs.Expiry
import FreightPromotion.Proofs.Explanations
import FreightPromotion.Proofs.Fanout
import FreightPromotion.Proofs.Files.Extensions
import FreightPromotion.Proofs.Files.Paths
import FreightPromotion.Proofs.Files.PlainPaths
import FreightPromotion.Proofs.Files.Trees
import FreightPromotion.Proofs.Files.Twins
import FreightPromotion.Proofs.Footprint
import FreightPromotion.Proofs.Framing
import FreightPromotion.Proofs.Identification
import FreightPromotion.Proofs.Interleaving
import FreightPromotion.Proofs.Json.Agreement
import FreightPromotion.Proofs.Json.Arrangements
import FreightPromotion.Proofs.Json.Carrying
import FreightPromotion.Proofs.Json.Denotation
import FreightPromotion.Proofs.Json.Escapes
import FreightPromotion.Proofs.Json.Fields
import FreightPromotion.Proofs.Json.Fractions
import FreightPromotion.Proofs.Json.Integers
import FreightPromotion.Proofs.Json.Members
import FreightPromotion.Proofs.Json.Numbers
import FreightPromotion.Proofs.Json.Numerals
import FreightPromotion.Proofs.Json.Objects
import FreightPromotion.Proofs.Json.Parts
import FreightPromotion.Proofs.Json.Passing
import FreightPromotion.Proofs.Json.PrintedObjects
import FreightPromotion.Proofs.Json.Records
import FreightPromotion.Proofs.Json.Stored
import FreightPromotion.Proofs.Json.Values
import FreightPromotion.Proofs.Json.Words
import FreightPromotion.Proofs.Members
import FreightPromotion.Proofs.NameLines
import FreightPromotion.Proofs.Omission
import FreightPromotion.Proofs.Prelude
import FreightPromotion.Proofs.Printers
import FreightPromotion.Proofs.Rendering
import FreightPromotion.Proofs.Replacement
import FreightPromotion.Proofs.Replies
import FreightPromotion.Proofs.Secrecy
import FreightPromotion.Proofs.Settings
import FreightPromotion.Proofs.StoredServer
import FreightPromotion.Proofs.StoredToken
import FreightPromotion.Proofs.Stream
import FreightPromotion.Proofs.Submission
import FreightPromotion.Proofs.Summaries
import FreightPromotion.Proofs.TemporaryPaths
import FreightPromotion.Proofs.Text.Lines
import FreightPromotion.Proofs.Text.Quoted
import FreightPromotion.Proofs.Truncation
import FreightPromotion.Proofs.Validation
import FreightPromotion.Proofs.Violations
import FreightPromotion.Proofs.Yaml.Lines
import FreightPromotion.Request
import FreightPromotion.Settings
import FreightPromotion.Sink
import FreightPromotion.Store
import FreightPromotion.Text.Alphanumeric
import FreightPromotion.Text.Concealed
import FreightPromotion.Text.Hexadecimal
import FreightPromotion.Text.Percent
import FreightPromotion.Text.Quoted
import FreightPromotion.Text.Ranges
import FreightPromotion.Text.Unstyled
import FreightPromotion.Text.Utf8
import FreightPromotion.Trace
import FreightPromotion.Yaml.Block
import FreightPromotion.Yaml.Scalar
