import TableShell.Command.Create
import TableShell.Command.Reader
import TableShell.Command.Table
import TableShell.Completion
import TableShell.Connection
import TableShell.Console
import TableShell.Console.Grid
import TableShell.Dictionary
import TableShell.Error
import TableShell.Flags
import TableShell.History
import TableShell.Input
import TableShell.Json
import TableShell.Lexeme
import TableShell.Lexer
import TableShell.Main
import TableShell.Number.Binary64
import TableShell.Number.Decimal
import TableShell.Number.Integer
import TableShell.Program
import TableShell.Proofs.Act
import TableShell.Proofs.CommandKind
import TableShell.Proofs.Session.Again
import TableShell.Proofs.Session.Command
import TableShell.Proofs.Session.Failure
import TableShell.Proofs.Session.Line
import TableShell.Proofs.Session.Paging
import TableShell.Proofs.Session.Run
import TableShell.Proofs.Session.Token
import TableShell.Proofs.Template
import TableShell.Proofs.Text
import TableShell.Query
import TableShell.Remote
import TableShell.Remote.AttributeValue
import TableShell.Remote.Parts
import TableShell.Remote.Reply
import TableShell.Remote.Request
import TableShell.Remote.Table
import TableShell.Schema
import TableShell.Schema.Json
import TableShell.Script
import TableShell.Session
import TableShell.Session.Execute
import TableShell.Session.Line
import TableShell.Session.Run
import TableShell.Storage
import TableShell.Storage.Memory
import TableShell.Supply
import TableShell.Template
import TableShell.Text.Affix
import TableShell.Text.Base64
import TableShell.Text.Blank
import TableShell.Text.Bytes
import TableShell.Text.Capital
import TableShell.Text.Cluster
import TableShell.Text.Emoji
import TableShell.Text.Hex
import TableShell.Text.Marks
import TableShell.Text.Ranges
import TableShell.Text.Width
import TableShell.Value
import TableShell.Value.Json
import TableShell.Value.Key
import TableShell.Verb
import TableShell.Proofs.Session.Journal
import TableShell.Proofs.Query.Rewrite
import TableShell.Proofs.Lexeme.Printed
import TableShell.Proofs.Query.Literal
import TableShell.Proofs.Session.Uniform
import TableShell.Proofs.Session.Joined
import TableShell.Proofs.Lexeme.Cut
import TableShell.Proofs.Query.Parts
import TableShell.Proofs.Query.Projection
import TableShell.Proofs.Query.Spacing
import TableShell.Proofs.Number.Numeral
import TableShell.Proofs.Query.Limit
import TableShell.Proofs.Session.Limit
import TableShell.Proofs.Query.Repeat
import TableShell.Proofs.Query.Table
import TableShell.Proofs.Command.Reader
import TableShell.Proofs.Command.Grammar
import TableShell.Proofs.Lexeme.Typed
import TableShell.Proofs.Command.RoundTrip
import TableShell.Proofs.Session.Expansion
import TableShell.Proofs.Session.Opening
import TableShell.Proofs.Session.Reconnect
import TableShell.Proofs.Session.Frame
import TableShell.Proofs.Session.Batch
import TableShell.Proofs.Session.Dialogue
import TableShell.Proofs.Session.Retry
import TableShell.Proofs.Session.Assign
import TableShell.Proofs.Storage.Key
import TableShell.Proofs.Storage.Memory
import TableShell.Proofs.Session.Truncate
import TableShell.Proofs.Text.Utf8
import TableShell.Proofs.Session.Memory
import TableShell.Proofs.Session.Listing
import TableShell.Proofs.Template.Form
import TableShell.Proofs.Remote.AttributeValue
import TableShell.Proofs.Remote.Table
import TableShell.Proofs.Completion
import TableShell.Proofs.Command.Quoted
import TableShell.Proofs.Query.Select
import TableShell.Proofs.Number.Fraction
import TableShell.Proofs.Number.Rounding
import TableShell.Proofs.Number.Shortest
import TableShell.Proofs.Number.Decimal
import TableShell.Proofs.Json
import TableShell.Proofs.Value.Json
import TableShell.Proofs.Text.Fields
import TableShell.Proofs.Console
import TableShell.Proofs.Session.Echo
import TableShell.Proofs.Lexeme.Tidy
import TableShell.Proofs.Flags.Word
import TableShell.Proofs.Flags.Line
import TableShell.Proofs.Flags.Fault
import TableShell.Proofs.Flags.Parser
import TableShell.Proofs.Connection
import TableShell.Proofs.Schema
import TableShell.Proofs.Script
import TableShell.Proofs.Lexeme.Modes
import TableShell.Proofs.Lexeme.Encoded
import TableShell.Proofs.Lexeme.Literal
