import FishCheck.Command.Arguments
import FishCheck.Command.Basic
import FishCheck.Command.Batch
import FishCheck.Command.Check
import FishCheck.Command.Formatting
import FishCheck.Command.Line
import FishCheck.Command.Serve
import FishCheck.Command.Style
import FishCheck.Complaint
import FishCheck.Decimal
import FishCheck.Diagnostic
import FishCheck.Discovery
import FishCheck.Document.Basic
import FishCheck.Document.Position
import FishCheck.Format
import FishCheck.Host.Basic
import FishCheck.Host.Condition
import FishCheck.Host.Expansion
import FishCheck.Host.Expression
import FishCheck.Host.Machine
import FishCheck.Host.Script
import FishCheck.Host.Script.Commands
import FishCheck.Host.Script.Effects
import FishCheck.Host.Tools
import FishCheck.Host.Tools.Basic
import FishCheck.Host.Tools.Counting
import FishCheck.Host.Tools.Editing
import FishCheck.Host.Tools.Escape
import FishCheck.Host.Tools.Ordering
import FishCheck.Host.Tools.Printing
import FishCheck.Host.Tools.Replacing
import FishCheck.Host.Tree
import FishCheck.Ignore.Glob
import FishCheck.Ignore.Rules
import FishCheck.Json.Basic
import FishCheck.Json.Reader
import FishCheck.Json.Writer
import FishCheck.Lint
import FishCheck.Main
import FishCheck.Path
import FishCheck.Process
import FishCheck.Proofs.Ascending
import FishCheck.Proofs.Command.Checking
import FishCheck.Proofs.Command.Effects
import FishCheck.Proofs.Command.Installing
import FishCheck.Proofs.Command.Interleaving
import FishCheck.Proofs.Command.Prediction
import FishCheck.Proofs.Command.Reporting
import FishCheck.Proofs.Command.Rewriting
import FishCheck.Proofs.Command.Selection
import FishCheck.Proofs.Command.StandardInput
import FishCheck.Proofs.Command.Tools
import FishCheck.Proofs.Complaint.Grammar
import FishCheck.Proofs.Complaint.Home
import FishCheck.Proofs.Complaint.Identity
import FishCheck.Proofs.Complaint.Lines
import FishCheck.Proofs.Complaint.Matching
import FishCheck.Proofs.Complaint.Printing
import FishCheck.Proofs.Discovery.Spellings
import FishCheck.Proofs.Discovery.Union
import FishCheck.Proofs.Document.ByteIndex
import FishCheck.Proofs.Document.Clamping
import FishCheck.Proofs.Document.Cuts
import FishCheck.Proofs.Document.Lines
import FishCheck.Proofs.Document.Offsets
import FishCheck.Proofs.Document.Places
import FishCheck.Proofs.Document.Selection
import FishCheck.Proofs.Host.Names
import FishCheck.Proofs.Lint.NamedFile
import FishCheck.Proofs.Lint.OwnErrors
import FishCheck.Proofs.Lint.WholeLines
import FishCheck.Proofs.Path.Names
import FishCheck.Proofs.Path.Order
import FishCheck.Proofs.Path.Spellings
import FishCheck.Proofs.Session.Activation
import FishCheck.Proofs.Session.Currency
import FishCheck.Proofs.Session.Documents
import FishCheck.Proofs.Session.Formatting
import FishCheck.Proofs.Session.Handlers
import FishCheck.Proofs.Session.Handshake
import FishCheck.Proofs.Session.History
import FishCheck.Proofs.Session.Isolation
import FishCheck.Proofs.Session.Numbering
import FishCheck.Proofs.Session.Publishing
import FishCheck.Proofs.Session.Turns
import FishCheck.Proofs.Settings.Fields
import FishCheck.Proofs.Settings.Filed
import FishCheck.Proofs.Settings.Precedence
import FishCheck.Proofs.Settings.Sent
import FishCheck.Proofs.Text.Decoding
import FishCheck.Proofs.Text.LineSearch
import FishCheck.Proofs.Text.Search
import FishCheck.Proofs.Text.Sorting
import FishCheck.Proofs.Toml.Keys
import FishCheck.Proofs.Url.FileNames
import FishCheck.Proofs.Url.FilePaths
import FishCheck.Proofs.Url.LocalPaths
import FishCheck.Proofs.Version.Lines
import FishCheck.Proofs.Version.Matching
import FishCheck.Session.Activation
import FishCheck.Session.Basic
import FishCheck.Session.Framing
import FishCheck.Session.Generations
import FishCheck.Session.Handlers
import FishCheck.Session.Message
import FishCheck.Session.Methods
import FishCheck.Session.Params
import FishCheck.Session.Rehearsal
import FishCheck.Session.Server
import FishCheck.Session.Store
import FishCheck.Session.Wire
import FishCheck.Settings.Basic
import FishCheck.Settings.Editor
import FishCheck.Settings.File
import FishCheck.Settings.Mismatch
import FishCheck.Settings.Source
import FishCheck.Shell.Arithmetic
import FishCheck.Shell.Lexis
import FishCheck.Shell.Pattern
import FishCheck.Shell.Reader
import FishCheck.Shell.Syntax
import FishCheck.Table
import FishCheck.Text.Basic
import FishCheck.Text.Blank
import FishCheck.Text.Digit
import FishCheck.Text.Octets
import FishCheck.Text.Order
import FishCheck.Text.Printable
import FishCheck.Text.Quoted
import FishCheck.Text.Utf16
import FishCheck.Text.Utf8
import FishCheck.Toml.Basic
import FishCheck.Toml.DateTime
import FishCheck.Toml.Reader
import FishCheck.Url.Basic
import FishCheck.Url.File
import FishCheck.Url.Host
import FishCheck.Url.Percent
import FishCheck.Version
