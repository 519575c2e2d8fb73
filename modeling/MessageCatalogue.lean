import MessageCatalogue.Candidate
import MessageCatalogue.Change
import MessageCatalogue.CommandLine.Arguments
import MessageCatalogue.CommandLine.Help
import MessageCatalogue.CommandLine.Journal
import MessageCatalogue.CommandLine.LogDirective
import MessageCatalogue.CommandLine.LogEvent
import MessageCatalogue.CommandLine.LogFilter
import MessageCatalogue.CommandLine.Program
import MessageCatalogue.CommandLine.Report
import MessageCatalogue.CommandLine.Usage
import MessageCatalogue.CommandLine.ValuePattern
import MessageCatalogue.Dictionary
import MessageCatalogue.Distinct
import MessageCatalogue.Error
import MessageCatalogue.Locale.Basic
import MessageCatalogue.Locale.Grammar
import MessageCatalogue.Locale.Resolver
import MessageCatalogue.Main
import MessageCatalogue.Placeholder
import MessageCatalogue.Proofs.Candidate
import MessageCatalogue.Proofs.CommandLine.Check
import MessageCatalogue.Proofs.Dictionary
import MessageCatalogue.Proofs.Distinct
import MessageCatalogue.Proofs.Error
import MessageCatalogue.Proofs.Locale.Canonical
import MessageCatalogue.Proofs.Locale.Draft
import MessageCatalogue.Proofs.Locale.Joining
import MessageCatalogue.Proofs.Locale.Legible
import MessageCatalogue.Proofs.Locale.Subtags
import MessageCatalogue.Proofs.Outcome
import MessageCatalogue.Proofs.Placeholder
import MessageCatalogue.Proofs.Properties.BlankLines
import MessageCatalogue.Proofs.Properties.CodePoint
import MessageCatalogue.Proofs.Properties.Concatenation
import MessageCatalogue.Proofs.Properties.Continuation
import MessageCatalogue.Proofs.Properties.Division
import MessageCatalogue.Proofs.Properties.Escape
import MessageCatalogue.Proofs.Properties.EscapedCodePoint
import MessageCatalogue.Proofs.Properties.Hexadecimal
import MessageCatalogue.Proofs.Properties.Intact
import MessageCatalogue.Proofs.Properties.Layout
import MessageCatalogue.Proofs.Properties.LineNumbers
import MessageCatalogue.Proofs.Properties.Malformed
import MessageCatalogue.Proofs.Properties.Reading
import MessageCatalogue.Proofs.Properties.RoundTrip
import MessageCatalogue.Proofs.Properties.Spelling
import MessageCatalogue.Proofs.Properties.Wrapping
import MessageCatalogue.Proofs.Reference
import MessageCatalogue.Proofs.Resource.Codes
import MessageCatalogue.Proofs.Resource.Conversation
import MessageCatalogue.Proofs.Resource.Copies
import MessageCatalogue.Proofs.Resource.Discovery
import MessageCatalogue.Proofs.Resource.Encoding
import MessageCatalogue.Proofs.Resource.Entries
import MessageCatalogue.Proofs.Resource.Exchanges
import MessageCatalogue.Proofs.Resource.Failures
import MessageCatalogue.Proofs.Resource.FileTree
import MessageCatalogue.Proofs.Resource.FlatPattern
import MessageCatalogue.Proofs.Resource.Id
import MessageCatalogue.Proofs.Resource.Loader
import MessageCatalogue.Proofs.Resource.Loading
import MessageCatalogue.Proofs.Resource.Memory
import MessageCatalogue.Proofs.Resource.Mirror
import MessageCatalogue.Proofs.Resource.Naming
import MessageCatalogue.Proofs.Resource.Pattern
import MessageCatalogue.Proofs.Resource.Recoding
import MessageCatalogue.Proofs.Resource.Standard
import MessageCatalogue.Proofs.Resource.Storage
import MessageCatalogue.Proofs.Resource.Texts
import MessageCatalogue.Proofs.Resource.Transcript
import MessageCatalogue.Proofs.Settings.Layers
import MessageCatalogue.Proofs.Settings.Overlay
import MessageCatalogue.Proofs.Settings.Variables
import MessageCatalogue.Proofs.Source.FanOut
import MessageCatalogue.Proofs.Source.Initialization
import MessageCatalogue.Proofs.Source.Leaves
import MessageCatalogue.Proofs.Source.Localization
import MessageCatalogue.Proofs.Source.Offer
import MessageCatalogue.Proofs.Source.Precedence
import MessageCatalogue.Proofs.Source.Separation
import MessageCatalogue.Proofs.Store.Agreement
import MessageCatalogue.Proofs.Store.Assembly
import MessageCatalogue.Proofs.Store.Atomicity
import MessageCatalogue.Proofs.Store.CallTree
import MessageCatalogue.Proofs.Store.Cascade
import MessageCatalogue.Proofs.Store.Codes
import MessageCatalogue.Proofs.Store.Commutation
import MessageCatalogue.Proofs.Store.Counterparts
import MessageCatalogue.Proofs.Store.Discovery
import MessageCatalogue.Proofs.Store.Effect
import MessageCatalogue.Proofs.Store.Encodings
import MessageCatalogue.Proofs.Store.Exchanges
import MessageCatalogue.Proofs.Store.Failures
import MessageCatalogue.Proofs.Store.FirstFailure
import MessageCatalogue.Proofs.Store.Freshness
import MessageCatalogue.Proofs.Store.History
import MessageCatalogue.Proofs.Store.Incremental
import MessageCatalogue.Proofs.Store.Laid
import MessageCatalogue.Proofs.Store.Layers
import MessageCatalogue.Proofs.Store.Lifecycle
import MessageCatalogue.Proofs.Store.Meaning
import MessageCatalogue.Proofs.Store.Mirror
import MessageCatalogue.Proofs.Store.Naming
import MessageCatalogue.Proofs.Store.Nesting
import MessageCatalogue.Proofs.Store.Notification
import MessageCatalogue.Proofs.Store.Ownership
import MessageCatalogue.Proofs.Store.Provenance
import MessageCatalogue.Proofs.Store.Publication
import MessageCatalogue.Proofs.Store.Reachable
import MessageCatalogue.Proofs.Store.Renewal
import MessageCatalogue.Proofs.Store.Settling
import MessageCatalogue.Proofs.Text.Ascii
import MessageCatalogue.Proofs.Text.Lines
import MessageCatalogue.Proofs.Text.Order
import MessageCatalogue.Proofs.Text.Pieces
import MessageCatalogue.Proofs.Text.WhiteSpace
import MessageCatalogue.Properties.Document
import MessageCatalogue.Properties.Entry
import MessageCatalogue.Properties.Escape
import MessageCatalogue.Reference
import MessageCatalogue.RegularExpression.Basic
import MessageCatalogue.RegularExpression.Reader
import MessageCatalogue.RegularExpression.Support
import MessageCatalogue.Resource.Directories
import MessageCatalogue.Resource.Encoding
import MessageCatalogue.Resource.Enumerator
import MessageCatalogue.Resource.Exchange
import MessageCatalogue.Resource.Fault
import MessageCatalogue.Resource.Fetch
import MessageCatalogue.Resource.FileTree
import MessageCatalogue.Resource.Id
import MessageCatalogue.Resource.Loader
import MessageCatalogue.Resource.Memory
import MessageCatalogue.Resource.Outage
import MessageCatalogue.Resource.Pattern
import MessageCatalogue.Settings.Basic
import MessageCatalogue.Settings.Build
import MessageCatalogue.Settings.Environment
import MessageCatalogue.Settings.Layers
import MessageCatalogue.Settings.Toml.Block
import MessageCatalogue.Settings.Toml.Document
import MessageCatalogue.Settings.Toml.Moment
import MessageCatalogue.Settings.Toml.Number
import MessageCatalogue.Settings.Toml.Quoted
import MessageCatalogue.Settings.Toml.Reader
import MessageCatalogue.Settings.Value
import MessageCatalogue.Source.Basic
import MessageCatalogue.Source.Context
import MessageCatalogue.Source.Lifecycle
import MessageCatalogue.Source.Registry
import MessageCatalogue.Store.Basic
import MessageCatalogue.Store.Reload
import MessageCatalogue.Store.Setup
import MessageCatalogue.Store.Snapshot
import MessageCatalogue.Table
import MessageCatalogue.Text.Alphabetic
import MessageCatalogue.Text.Alphanumeric
import MessageCatalogue.Text.Digits
import MessageCatalogue.Text.Lines
import MessageCatalogue.Text.Pieces
import MessageCatalogue.Text.Utf8
import MessageCatalogue.Text.WhiteSpace
