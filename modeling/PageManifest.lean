import PageManifest.Backend.Basic
import PageManifest.Backend.Registry
import PageManifest.Backend.Stream
import PageManifest.Base64
import PageManifest.Charset.Basic
import PageManifest.Charset.Codec
import PageManifest.Charset.Coding
import PageManifest.Charset.Fault
import PageManifest.Charset.Names
import PageManifest.Charset.RawEscape
import PageManifest.Charset.Readable
import PageManifest.Charset.SingleOctet
import PageManifest.Charset.Utf8
import PageManifest.Charset.Wide
import PageManifest.Command.Action
import PageManifest.Command.Manual
import PageManifest.Command.Perform
import PageManifest.Command.Program
import PageManifest.Command.Request
import PageManifest.Command.Status
import PageManifest.Command.Switch
import PageManifest.Config.Basic
import PageManifest.Config.Load
import PageManifest.Config.Written
import PageManifest.Diff.Hunk
import PageManifest.Diff.Preview
import PageManifest.Diff.Script
import PageManifest.Diff.Similar
import PageManifest.Diff.Unified
import PageManifest.Digest.Algorithm
import PageManifest.Digest.Blocks
import PageManifest.Digest.Md5
import PageManifest.Digest.Method
import PageManifest.Digest.Sha1
import PageManifest.Digest.Sha256
import PageManifest.Digest.Sha512
import PageManifest.Failure
import PageManifest.Files
import PageManifest.Host
import PageManifest.Inline
import PageManifest.Json
import PageManifest.Log.Argument
import PageManifest.Log.Message
import PageManifest.Log.Record
import PageManifest.Log.Setup
import PageManifest.Log.Template
import PageManifest.Main
import PageManifest.Marker
import PageManifest.Markup.Element
import PageManifest.Markup.Entity
import PageManifest.Markup.EntityTable
import PageManifest.Markup.Landmark
import PageManifest.Markup.Reference
import PageManifest.Number.Binary
import PageManifest.Number.Decimal
import PageManifest.Path
import PageManifest.Platform
import PageManifest.Platform.Bundled
import PageManifest.Proofs.Acts
import PageManifest.Proofs.Additivity
import PageManifest.Proofs.Attributes
import PageManifest.Proofs.Backtracking
import PageManifest.Proofs.Bounds
import PageManifest.Proofs.Canonical
import PageManifest.Proofs.Checks
import PageManifest.Proofs.Coding
import PageManifest.Proofs.CompanionRun
import PageManifest.Proofs.Coverage
import PageManifest.Proofs.Discovery
import PageManifest.Proofs.Documents
import PageManifest.Proofs.DryRun
import PageManifest.Proofs.Dumping
import PageManifest.Proofs.Element
import PageManifest.Proofs.Endings
import PageManifest.Proofs.Escaping
import PageManifest.Proofs.Failing
import PageManifest.Proofs.Flags
import PageManifest.Proofs.Forecast
import PageManifest.Proofs.Gaps
import PageManifest.Proofs.History
import PageManifest.Proofs.InPlace
import PageManifest.Proofs.LateFailure
import PageManifest.Proofs.Launch
import PageManifest.Proofs.Leftmost
import PageManifest.Proofs.Levels
import PageManifest.Proofs.Lines
import PageManifest.Proofs.Links
import PageManifest.Proofs.Loading
import PageManifest.Proofs.Measuring
import PageManifest.Proofs.Offsets
import PageManifest.Proofs.Partition
import PageManifest.Proofs.PatchReading
import PageManifest.Proofs.PatchText
import PageManifest.Proofs.Patches
import PageManifest.Proofs.Patterns
import PageManifest.Proofs.Payload
import PageManifest.Proofs.PayloadText
import PageManifest.Proofs.Performing
import PageManifest.Proofs.Placement
import PageManifest.Proofs.Presentation
import PageManifest.Proofs.Quoting
import PageManifest.Proofs.Readings
import PageManifest.Proofs.Recoding
import PageManifest.Proofs.Recognition
import PageManifest.Proofs.Reembedding
import PageManifest.Proofs.References
import PageManifest.Proofs.Referring
import PageManifest.Proofs.Removal
import PageManifest.Proofs.Replacing
import PageManifest.Proofs.Reporting
import PageManifest.Proofs.Resigning
import PageManifest.Proofs.RoundTrip
import PageManifest.Proofs.Runs
import PageManifest.Proofs.Saving
import PageManifest.Proofs.Scan
import PageManifest.Proofs.Scripts
import PageManifest.Proofs.Search
import PageManifest.Proofs.Setbacks
import PageManifest.Proofs.Showing
import PageManifest.Proofs.Spans
import PageManifest.Proofs.Strained
import PageManifest.Proofs.Streams
import PageManifest.Proofs.Surveys
import PageManifest.Proofs.Tables
import PageManifest.Proofs.Tags
import PageManifest.Proofs.Targets
import PageManifest.Proofs.TemporaryNames
import PageManifest.Proofs.Tiling
import PageManifest.Proofs.Trim
import PageManifest.Proofs.Unlinking
import PageManifest.Proofs.Unreported
import PageManifest.Proofs.UpToDate
import PageManifest.Proofs.Vacancy
import PageManifest.Proofs.Walks
import PageManifest.Proofs.Words
import PageManifest.Proofs.WrittenTags
import PageManifest.Region
import PageManifest.Sidecar.Companion
import PageManifest.Sidecar.Reference
import PageManifest.Store.Basic
import PageManifest.Store.Machine
import PageManifest.Store.Strain
import PageManifest.Strategy
import PageManifest.Stream
import PageManifest.Terminal.Console
import PageManifest.Terminal.Control
import PageManifest.Terminal.Style
import PageManifest.Text.Basic
import PageManifest.Text.Digit
import PageManifest.Text.Hex
import PageManifest.Text.Lines
import PageManifest.Text.Printable
import PageManifest.Text.Quoted
import PageManifest.Text.Ranges
import PageManifest.Text.Search
import PageManifest.Text.Word
import PageManifest.Toml.Document
import PageManifest.Toml.Scalar
import PageManifest.Toml.Statement
import PageManifest.Toml.Value
import PageManifest.Toml.Written
