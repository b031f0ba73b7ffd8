import LineCalc.Binary64.Arithmetic
import LineCalc.Binary64.Text
import LineCalc.Decimal.Reader
import LineCalc.Text.DecimalDigit
import LineCalc.Text.Lines
import LineCalc.Text.Quoted
import LineCalc.Text.Utf8
import LineCalc.Error
import LineCalc.Numeral
import LineCalc.Token.Basic
import LineCalc.Position
import LineCalc.Token.Cursor
import LineCalc.Operator
import LineCalc.Tree.Basic
import LineCalc.Tree.Reading
import LineCalc.Line.Outcome
import LineCalc.Line.Run
import LineCalc.Report.Csv
import LineCalc.Session.Arguments
import LineCalc.Session.Console
import LineCalc.Session.FileRun
import LineCalc.Session.Program
import LineCalc.Main
import LineCalc.Proofs.Rounding
import LineCalc.Proofs.Pieces
import LineCalc.Proofs.Passing
import LineCalc.Proofs.Yields
import LineCalc.Proofs.Lexing
import LineCalc.Proofs.Joints
import LineCalc.Proofs.Joining
import LineCalc.Proofs.Spacing
import LineCalc.Proofs.Diagnoses
import LineCalc.Proofs.Scanning
import LineCalc.Proofs.Values
import LineCalc.Proofs.Operations
import LineCalc.Proofs.Evaluation
import LineCalc.Proofs.Moves
import LineCalc.Proofs.Resuming
import LineCalc.Proofs.WellFormed
import LineCalc.Proofs.Grammar
import LineCalc.Proofs.Parsing
import LineCalc.Proofs.Lookahead
import LineCalc.Proofs.Calls
import LineCalc.Proofs.Viability
import LineCalc.Proofs.Running
import LineCalc.Proofs.States
import LineCalc.Proofs.SpecialValues
import LineCalc.Proofs.Sessions
import LineCalc.Proofs.SourceText
import LineCalc.Proofs.Stores
import LineCalc.Proofs.TableNames
import LineCalc.Proofs.Tables
import LineCalc.Proofs.LineFeeds
import LineCalc.Proofs.Survival
import LineCalc.Proofs.Labels
import LineCalc.Proofs.Readback
import LineCalc.Proofs.Readers
import LineCalc.Proofs.PlainTexts
import LineCalc.Proofs.ResultTexts
import LineCalc.Proofs.Records
import LineCalc.Proofs.Exports
import LineCalc.Proofs.LineCuts
import LineCalc.Proofs.Quiet
import LineCalc.Proofs.Debugging
import LineCalc.Proofs.Effects
import LineCalc.Proofs.Isolation
import LineCalc.Proofs.Consoles
import LineCalc.Proofs.IntegerLines
import LineCalc.Proofs.TreeTexts
import LineCalc.Proofs.TokenEquality
