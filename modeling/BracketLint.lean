import BracketLint.Arguments
import BracketLint.Bracket
import BracketLint.Check
import BracketLint.CommandLine
import BracketLint.CommandLine.Similarity
import BracketLint.Decimal
import BracketLint.Files
import BracketLint.Finding
import BracketLint.Journal
import BracketLint.Lexeme
import BracketLint.Lexing
import BracketLint.LineMap
import BracketLint.Lint
import BracketLint.LintError
import BracketLint.Logger
import BracketLint.Main
import BracketLint.Offset
import BracketLint.Record
import BracketLint.RecordList
import BracketLint.RecordList.Cursor
import BracketLint.Recording
import BracketLint.Report.Drawing
import BracketLint.Report.Excerpt
import BracketLint.Report.Item
import BracketLint.Report.Printer
import BracketLint.Report.Theme
import BracketLint.Scan
import BracketLint.ScanOptions
import BracketLint.Session
import BracketLint.Settings
import BracketLint.Settings.Decode
import BracketLint.Settings.Discovery
import BracketLint.Text.CharRanges
import BracketLint.Text.ColumnWidth
import BracketLint.Text.HiddenChars
import BracketLint.Text.PlainText
import BracketLint.Text.Quoted
import BracketLint.Text.Utf8
import BracketLint.Toml.Decode
import BracketLint.Toml.Document
import BracketLint.Toml.Error
import BracketLint.Toml.Moment
import BracketLint.Toml.Quotation
import BracketLint.Toml.Scalar
import BracketLint.Toml.Span
import BracketLint.Toml.Statement
import BracketLint.Toml.Token
import BracketLint.Toml.Value
import BracketLint.Proofs.Balance
import BracketLint.Proofs.Granted
import BracketLint.Proofs.PairedScan
import BracketLint.Proofs.Nesting
import BracketLint.Proofs.Reading
import BracketLint.Proofs.CharacterScan
import BracketLint.Proofs.Tokenization
import BracketLint.Proofs.Refusal
import BracketLint.Proofs.Passage
import BracketLint.Proofs.Seam
import BracketLint.Proofs.Encoding
import BracketLint.Proofs.LineLookup
import BracketLint.Proofs.LinePlaces
import BracketLint.Proofs.Placement
import BracketLint.Proofs.History
import BracketLint.Proofs.Capacity
import BracketLint.Proofs.Insertion
import BracketLint.Proofs.LiteralEnd
import BracketLint.Proofs.Opacity
import BracketLint.Proofs.KindExchange
import BracketLint.Proofs.DecidingFile
import BracketLint.Proofs.TreeLookup
import BracketLint.Proofs.ScanSettings
import BracketLint.Proofs.RunOutcome
import BracketLint.Proofs.CursorWalk
import BracketLint.Proofs.ReportLimit
import BracketLint.Proofs.ShortReport
import BracketLint.Proofs.Completion
import BracketLint.Proofs.UnusedOptions
import BracketLint.Proofs.ScanJournal
import BracketLint.Proofs.Verdict
import BracketLint.Proofs.KeyOrder
import BracketLint.Proofs.DoubleRange
import BracketLint.Proofs.GroupFields
import BracketLint.Proofs.SettingKeys
