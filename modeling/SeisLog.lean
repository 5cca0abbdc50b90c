import SeisLog.Bytes
import SeisLog.Charset
import SeisLog.Deck
import SeisLog.Failure
import SeisLog.Fields
import SeisLog.File
import SeisLog.Header.Basic
import SeisLog.Header.Writing
import SeisLog.Las.Extract
import SeisLog.Las.Header
import SeisLog.Las.Item
import SeisLog.Las.Line
import SeisLog.Layout.Basic
import SeisLog.Layout.Datum
import SeisLog.Layout.Draft
import SeisLog.Layout.Encoding
import SeisLog.Layout.Field
import SeisLog.Number.Binary64
import SeisLog.Number.Decimal
import SeisLog.Number.Grid
import SeisLog.Number.IbmSingle
import SeisLog.Number.Numeral
import SeisLog.Number.Rounding
import SeisLog.Number.Single
import SeisLog.Run
import SeisLog.Sample
import SeisLog.Segy.Extract
import SeisLog.Segy.Layouts
import SeisLog.Summary
import SeisLog.Table
import SeisLog.Tape.Basic
import SeisLog.Tape.Reading
import SeisLog.Text.Basic
import SeisLog.Text.Cased
import SeisLog.Text.Lower
import SeisLog.Text.Quoted
import SeisLog.Text.Upper
import SeisLog.Trace
import SeisLog.Value
import SeisLog.Walk
import SeisLog.Proofs.Header
import SeisLog.Proofs.Region.Frame
import SeisLog.Proofs.Region.Walk
import SeisLog.Proofs.Region.Start
import SeisLog.Proofs.Region.RoundTrip
import SeisLog.Proofs.Region.Prefix
import SeisLog.Proofs.Region.Truncation
import SeisLog.Proofs.Call
import SeisLog.Proofs.Cap
import SeisLog.Proofs.Session
import SeisLog.Proofs.Segy.Binary
import SeisLog.Proofs.Segy.Region
import SeisLog.Proofs.Segy.Extract
import SeisLog.Proofs.Segy.Volume
import SeisLog.Proofs.Pace
import SeisLog.Proofs.Deck
import SeisLog.Proofs.Segy.Headings
import SeisLog.Proofs.Segy.Revision
import SeisLog.Proofs.Region.Unhindered
import SeisLog.Proofs.Segy.Typed
import SeisLog.Proofs.Segy.Outcome
import SeisLog.Proofs.Segy.Summarized
import SeisLog.Proofs.Untouched
import SeisLog.Proofs.Las
import SeisLog.Proofs.Tiling
import SeisLog.Proofs.Casing
import SeisLog.Proofs.Selection
import SeisLog.Proofs.Reads
import SeisLog.Proofs.Ending
import SeisLog.Proofs.Closing
import SeisLog.Proofs.Charset
import SeisLog.Proofs.Numbers
import SeisLog.Proofs.Encoding
import SeisLog.Proofs.Writing
import SeisLog.Proofs.Exactness
import SeisLog.Proofs.Decoding
import SeisLog.Proofs.Acceptance
import SeisLog.Proofs.Extension
import SeisLog.Proofs.Samples
import SeisLog.Proofs.Order
import SeisLog.Proofs.Aggregate
import SeisLog.Proofs.Table
import SeisLog.Proofs.Normalized
import SeisLog.Proofs.Source
import SeisLog.Proofs.Playing
import SeisLog.Proofs.Blocks
