import Lexeme.Codec
import Lexeme.Json
import Lexeme.Json.Number
import Lexeme.Proofs.Codec.Accepted
import Lexeme.Proofs.Codec.Agreement
import Lexeme.Proofs.Codec.Defaults
import Lexeme.Proofs.Codec.Members
import Lexeme.Proofs.Codec.Misfit
import Lexeme.Proofs.Isolation
import Lexeme.Proofs.Json.Grammar
import Lexeme.Proofs.Json.Printer
import Lexeme.Proofs.Json.Spelling
import Lexeme.Proofs.Keyed
import Lexeme.Proofs.Registry.Independence
import Lexeme.Proofs.Registry.Log
import Lexeme.Proofs.Registry.Messages
import Lexeme.Proofs.Registry.Numbering
import Lexeme.Proofs.Registry.Registration
import Lexeme.Proofs.Registry.Replacement
import Lexeme.Proofs.Registry.Restoring
import Lexeme.Proofs.Registry.Settings
import Lexeme.Proofs.Registry.Snapshot
import Lexeme.Proofs.Report.Bounded
import Lexeme.Proofs.Report.Caret
import Lexeme.Proofs.Report.Colour
import Lexeme.Proofs.Report.Context
import Lexeme.Proofs.Report.LineCount
import Lexeme.Proofs.Report.Rows
import Lexeme.Proofs.Text.Legible
import Lexeme.Proofs.Text.Lines
import Lexeme.Proofs.Text.Painting
import Lexeme.Proofs.Text.Quoting
import Lexeme.Proofs.Text.Shown
import Lexeme.Proofs.Wrapping
import Lexeme.Registry
import Lexeme.Report
import Lexeme.Session
import Lexeme.Text.Braced
import Lexeme.Text.Hex
import Lexeme.Text.Place
import Lexeme.Text.Quoting
import Lexeme.Text.Shown
import Lexeme.Token
