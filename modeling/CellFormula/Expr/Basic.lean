import CellFormula.Range
import CellFormula.Value
import CellFormula.Operator.Basic

/-!
# Expressions

A formula built from values and addresses in place of their spellings. Its text is formula text
that reads back as the same formula.
-/

namespace CellFormula

inductive Expr where
  | value (v : Value)
  | reference (a : Address)
  | unary (op : UnaryOp) (operand : Expr)
  | binary (op : BinaryOp) (left right : Expr)
  | aggregate (fn : Aggregate) (range : Range)
deriving DecidableEq, Repr

end CellFormula
