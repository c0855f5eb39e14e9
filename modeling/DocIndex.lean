import DocIndex.Main
import DocIndex.Proofs.Pattern.RoundTrip
import DocIndex.Proofs.Row.Product
import DocIndex.Proofs.Pattern.Equality
import DocIndex.Proofs.Store.Interleaving
import DocIndex.Proofs.Store.Request
import DocIndex.Proofs.Store.Table
import DocIndex.Proofs.Json.Numeral
import DocIndex.Proofs.Json.Text
import DocIndex.Proofs.Json.Everywhere
import DocIndex.Proofs.Json.RoundTrip
import DocIndex.Proofs.Store.FileStore
import DocIndex.Proofs.Design.WellFormed
import DocIndex.Proofs.Store.Mirror
import DocIndex.Proofs.Pattern.Decode
import DocIndex.Proofs.Pattern.Normal
import DocIndex.Proofs.Json.Read
import DocIndex.Proofs.Store.History
import DocIndex.Proofs.Store.Frame
import DocIndex.Proofs.Row.Guard
import DocIndex.Proofs.Pattern.Grammar
import DocIndex.Proofs.Store.TemporaryFile
import DocIndex.Proofs.Store.Replacement
import DocIndex.Proofs.Pattern.Depth
import DocIndex.Proofs.Store.Readable
import DocIndex.Proofs.Interpreted.Failure
import DocIndex.Proofs.Number.Binary64
import DocIndex.Proofs.Time.Calendar
import DocIndex.Proofs.Time.Timestamp
import DocIndex.Proofs.Time.Form
import DocIndex.Proofs.Text.Blank
import DocIndex.Proofs.Time.Rfc3339
import DocIndex.Proofs.Time.Lenient
import DocIndex.Proofs.Time.Reader
import DocIndex.Proofs.Time.Chronology
import DocIndex.Proofs.Time.Range
import DocIndex.Proofs.Path.Segments
import DocIndex.Proofs.Path.Resolution
import DocIndex.Proofs.Interpreted.LegacyMinute
import DocIndex.Proofs.Interpreted.Nesting
import DocIndex.Proofs.Row.WellFormed
import DocIndex.Proofs.Json.Compact
import DocIndex.Proofs.Documents.Lines
import DocIndex.Proofs.Pattern.Place
import DocIndex.Proofs.Pattern.Fault
import DocIndex.Proofs.Text.Word
import DocIndex.Proofs.Documents.Delimited
import DocIndex.Proofs.Store.Generation
import DocIndex.Proofs.Design.Definition
import DocIndex.Proofs.Store.InPlace
import DocIndex.Proofs.Interpreted.Outermost
import DocIndex.Proofs.Text.Slice
import DocIndex.Proofs.Time.Year
import DocIndex.Proofs.Time.CheckedOffset
import DocIndex.Proofs.Time.CheckedReader
import DocIndex.Proofs.CommandLine.Arguments
import DocIndex.Proofs.CommandLine.Run
import DocIndex.Proofs.Settings.Toml
import DocIndex.Proofs.Settings.Written
