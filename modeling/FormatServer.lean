import FormatServer.Command.Quoting
import FormatServer.Command.Words
import FormatServer.CommandLine.Choices
import FormatServer.CommandLine.Launch
import FormatServer.CommandLine.Switch
import FormatServer.Disk
import FormatServer.Document.Notices
import FormatServer.Document.Position
import FormatServer.Document.Store
import FormatServer.Formatter.Error
import FormatServer.Formatter.LineReader
import FormatServer.Formatter.Process
import FormatServer.Formatter.Run
import FormatServer.Formatter.Script
import FormatServer.Formatter.TemporaryFile
import FormatServer.Hooks
import FormatServer.Json.Error
import FormatServer.Json.Reader
import FormatServer.Json.Writer
import FormatServer.Main
import FormatServer.Number.Binary64
import FormatServer.Number.Literal
import FormatServer.Number.Shortest
import FormatServer.Number.Written
import FormatServer.Path
import FormatServer.Proofs.Command.Quoting
import FormatServer.Proofs.CommandLine.Launch
import FormatServer.Proofs.CommandLine.Line
import FormatServer.Proofs.CommandLine.Word
import FormatServer.Proofs.Disk
import FormatServer.Proofs.Document.Notices
import FormatServer.Proofs.Document.Offset
import FormatServer.Proofs.Document.ProtocolPosition
import FormatServer.Proofs.Document.Ranges
import FormatServer.Proofs.Document.Store
import FormatServer.Proofs.Document.WholeDocument
import FormatServer.Proofs.Formatter.Events
import FormatServer.Proofs.Formatter.Forwarding
import FormatServer.Proofs.Formatter.LineReader
import FormatServer.Proofs.Formatter.Outcome
import FormatServer.Proofs.Formatter.Output
import FormatServer.Proofs.Formatter.Playing
import FormatServer.Proofs.Formatter.Splice
import FormatServer.Proofs.Formatter.TemporaryFile
import FormatServer.Proofs.Formatter.TemporaryPath
import FormatServer.Proofs.Hooks
import FormatServer.Proofs.Lookup
import FormatServer.Proofs.Number.Integer
import FormatServer.Proofs.Path
import FormatServer.Proofs.Schedule.TimerHeap
import FormatServer.Proofs.Session.Alarms
import FormatServer.Proofs.Session.Alone
import FormatServer.Proofs.Session.Answers
import FormatServer.Proofs.Session.Arrivals
import FormatServer.Proofs.Session.Call
import FormatServer.Proofs.Session.Course
import FormatServer.Proofs.Session.Deadlines
import FormatServer.Proofs.Session.DocumentSettings
import FormatServer.Proofs.Session.Fetches
import FormatServer.Proofs.Session.Files
import FormatServer.Proofs.Session.Ground
import FormatServer.Proofs.Session.Handshake
import FormatServer.Proofs.Session.History
import FormatServer.Proofs.Session.Interference
import FormatServer.Proofs.Session.LayeredSettings
import FormatServer.Proofs.Session.Lifetimes
import FormatServer.Proofs.Session.Lingering
import FormatServer.Proofs.Session.Loop
import FormatServer.Proofs.Session.Moves
import FormatServer.Proofs.Session.OpenDocuments
import FormatServer.Proofs.Session.Own
import FormatServer.Proofs.Session.Processes
import FormatServer.Proofs.Session.Pushes
import FormatServer.Proofs.Session.Queue
import FormatServer.Proofs.Session.Removal
import FormatServer.Proofs.Session.Request
import FormatServer.Proofs.Session.Said
import FormatServer.Proofs.Session.Simulation
import FormatServer.Proofs.Session.Turns
import FormatServer.Proofs.Session.ValidSettings
import FormatServer.Proofs.Session.Work
import FormatServer.Proofs.Settings.Answer
import FormatServer.Proofs.Settings.File
import FormatServer.Proofs.Settings.Layer
import FormatServer.Proofs.Settings.Layering
import FormatServer.Proofs.Settings.Source
import FormatServer.Proofs.Settings.Valid
import FormatServer.Proofs.Text.Lines
import FormatServer.Proofs.Text.Utf8
import FormatServer.Protocol.Field
import FormatServer.Protocol.Frame
import FormatServer.Protocol.Incoming
import FormatServer.Protocol.Outgoing
import FormatServer.Protocol.Parameters
import FormatServer.Protocol.Reading
import FormatServer.Protocol.ResponseError
import FormatServer.Schedule.TimerHeap
import FormatServer.Session.Basic
import FormatServer.Session.Documents
import FormatServer.Session.Formatting
import FormatServer.Session.Handshake
import FormatServer.Session.Progress
import FormatServer.Session.Receive
import FormatServer.Session.Step
import FormatServer.Settings.Basic
import FormatServer.Settings.Cache
import FormatServer.Settings.File
import FormatServer.Settings.Layer
import FormatServer.Settings.Source
import FormatServer.SystemError
import FormatServer.Text.Base64
import FormatServer.Text.Blank
import FormatServer.Text.Digit
import FormatServer.Text.Lines
import FormatServer.Text.Pieces
import FormatServer.Text.Printable
import FormatServer.Text.Quoted
import FormatServer.Text.Units
import FormatServer.Text.Utf8
import FormatServer.Uri.Host
import FormatServer.Uri.Parts
import FormatServer.Uri.Percent
import FormatServer.Value.Basic
import FormatServer.Value.Shown
import FormatServer.Yaml.Cursor
import FormatServer.Yaml.Data
import FormatServer.Yaml.Error
import FormatServer.Yaml.Kind
import FormatServer.Yaml.Node
import FormatServer.Yaml.Scalar
import FormatServer.Yaml.Time
import FormatServer.Yaml.Token.Basic
import FormatServer.Yaml.Token.Property
import FormatServer.Yaml.Token.Scalar
import FormatServer.Yaml.Token.Scan
