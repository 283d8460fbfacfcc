import CellFormula.Text.Blank
import CellFormula.Text.Front
import CellFormula.Text.Span
import CellFormula.Numeral
import CellFormula.Integer
import CellFormula.Binary
import CellFormula.Decimal.Basic
import CellFormula.Decimal.Notation
import CellFormula.Address.Column
import CellFormula.Address.Basic
import CellFormula.Address.Reference
import CellFormula.Range
import CellFormula.Grid
import CellFormula.Operator.Basic
import CellFormula.Value
import CellFormula.Token.Basic
import CellFormula.Tree.Basic
import CellFormula.Error
import CellFormula.Token.Lexer
import CellFormula.Tree.Parser
import CellFormula.Operator.Arithmetic
import CellFormula.Operator.Apply
import CellFormula.Operator.Fold
import CellFormula.Literal
import CellFormula.Expr.Basic
import CellFormula.Expr.Text
import CellFormula.Trace
import CellFormula.Evaluation.Basic
import CellFormula.Evaluation.Context
import CellFormula.Session
import CellFormula.Text.Lines
import CellFormula.CommandLine.Arguments
import CellFormula.CommandLine.Transcript
import CellFormula.CommandLine.Report
import CellFormula.Main
import CellFormula.Proofs.Tree.Chain
import CellFormula.Proofs.Tree.Parser
import CellFormula.Proofs.Address.Column
import CellFormula.Proofs.Address.Reference
import CellFormula.Proofs.Token.Word
import CellFormula.Proofs.Token.Lexer
import CellFormula.Proofs.Decimal.Notation
import CellFormula.Proofs.Expr.Tree
import CellFormula.Proofs.Expr.Text
import CellFormula.Proofs.Expr.Evaluation
import CellFormula.Proofs.Evaluation.Natural
import CellFormula.Proofs.Float.Bits
import CellFormula.Proofs.Decimal.Rounding
import CellFormula.Proofs.Decimal.Shortest
import CellFormula.Proofs.Tree.Levels
import CellFormula.Proofs.Grid
import CellFormula.Proofs.Token.Tiling
import CellFormula.Proofs.Evaluation.Aggregate
import CellFormula.Proofs.Evaluation.Errors
import CellFormula.Proofs.Evaluation.Nesting
import CellFormula.Proofs.Token.Lexeme
import CellFormula.Proofs.Evaluation.Terms
import CellFormula.Proofs.Evaluation.Dependence
import CellFormula.Proofs.Evaluation.Cycle
import CellFormula.Proofs.Tree.Hole
import CellFormula.Proofs.Evaluation.Inlining
import CellFormula.Proofs.Session.History
import CellFormula.Proofs.Token.Quotation
import CellFormula.Proofs.Evaluation.Strings
import CellFormula.Proofs.Text.Lines
import CellFormula.Proofs.CommandLine.Dialogue
import CellFormula.Proofs.CommandLine.Agreement
import CellFormula.Proofs.Operator.Exact
import CellFormula.Proofs.Operator.Words
import CellFormula.Proofs.Evaluation.Sum
import CellFormula.Proofs.Evaluation.Literal
import CellFormula.Proofs.Token.Marker
import CellFormula.Proofs.Address.Numeration
import CellFormula.Proofs.Address.Notation
import CellFormula.Proofs.Address.Text
import CellFormula.Proofs.Session.Assignment
import CellFormula.Proofs.Token.Source
import CellFormula.Proofs.Operator.Typing
import CellFormula.Proofs.Evaluation.Typing
import CellFormula.Proofs.Span
import CellFormula.Proofs.Evaluation.Mean
import CellFormula.Proofs.Evaluation.Strict
import CellFormula.Proofs.Float.Order
import CellFormula.Proofs.Operator.Extreme
