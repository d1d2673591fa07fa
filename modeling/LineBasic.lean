import LineBasic.Device.Journal
import LineBasic.Files.Disk
import LineBasic.Main
import LineBasic.Number.Places.Lemmas
import LineBasic.Proofs.Expr.Grammar
import LineBasic.Proofs.Token.Reader
import LineBasic.Proofs.Statement.Grammar
import LineBasic.Proofs.Line
import LineBasic.Proofs.Number.Double
import LineBasic.Proofs.Program
import LineBasic.Proofs.Program.File
import LineBasic.Proofs.Session
import LineBasic.Proofs.Number.Numeral
import LineBasic.Proofs.Number.SixDigits
import LineBasic.Proofs.Number.Format
import LineBasic.Proofs.Token.Lexer
import LineBasic.Proofs.Statement.WellFormed
import LineBasic.Proofs.Expr.Text
import LineBasic.Proofs.Statement.Text
import LineBasic.Proofs.Run.Failure
import LineBasic.Proofs.Run.Stepping
import LineBasic.Proofs.Run.Register
import LineBasic.Proofs.Session.Edit
import LineBasic.Proofs.Session.Load
import LineBasic.Proofs.Run.Congruence
import LineBasic.Proofs.Run.Lockstep
import LineBasic.Proofs.Run.Determined
import LineBasic.Proofs.Session.History
import LineBasic.Proofs.Run.Interrupt
import LineBasic.Proofs.Files
import LineBasic.Proofs.Prompt
import LineBasic.Proofs.Statement.Language
import LineBasic.Proofs.Run.Cause
import LineBasic.Proofs.Run.Renumbering
import LineBasic.Proofs.Run.Remark
import LineBasic.Proofs.Token.Attention
import LineBasic.Proofs.Expr.Attention
import LineBasic.Proofs.Statement.Attention
import LineBasic.Proofs.Session.Refused
import LineBasic.Proofs.Statement.Talk
import LineBasic.Proofs.Run.Transcript
import LineBasic.Proofs.Token.Cut
import LineBasic.Proofs.Token.Faithful
import LineBasic.Proofs.Expr.Effect
import LineBasic.Proofs.Number.Decimal
import LineBasic.Proofs.Number.Value
import LineBasic.Proofs.Number.Rendering
import LineBasic.Proofs.Number.Nearest
import LineBasic.Proofs.Number.Stable
import LineBasic.Proofs.Number.Layout
import LineBasic.Proofs.Program.Traversal
import LineBasic.Proofs.Run.Forward
import LineBasic.Proofs.Number.Rounded
import LineBasic.Proofs.Number.Reading
import LineBasic.Proofs.Token.Numeral
import LineBasic.Proofs.Token.Literal
import LineBasic.Proofs.Line.Split
import LineBasic.Proofs.Session.WellFormed
import LineBasic.Proofs.Statement.Assignment
import LineBasic.Proofs.Command
import LineBasic.Proofs.Prompt.Listing
import LineBasic.Proofs.Line.Remark
import LineBasic.Proofs.Statement.Spacing
