/-!
# Operators

The names of what a formula can compute: binary operators with their precedence, unary operators,
and the functions that fold the cells of a range. What they compute is in the modules beside this
one.
-/

namespace CellFormula

inductive BinaryOp where
  | add | subtract | multiply | divide | modulo | exponent
  | and | or
  | bitAnd | bitOr | bitXor | shiftLeft | shiftRight
  | lessThan | lessEqual | greaterThan | greaterEqual | equal | notEqual
deriving DecidableEq, Repr

namespace BinaryOp

def all : List BinaryOp :=
  [add, subtract, multiply, divide, modulo, exponent, and, or, bitAnd, bitOr, bitXor, shiftLeft,
   shiftRight, lessThan, lessEqual, greaterThan, greaterEqual, equal, notEqual]

theorem mem_all (op : BinaryOp) : op ∈ all := by
  cases op <;> decide

/-- The operator as a formula writes it. -/
def symbol : BinaryOp → String
  | add => "+"
  | subtract => "-"
  | multiply => "*"
  | divide => "/"
  | modulo => "%"
  | exponent => "**"
  | and => "&&"
  | or => "||"
  | bitAnd => "&"
  | bitOr => "|"
  | bitXor => "^"
  | shiftLeft => "<<"
  | shiftRight => ">>"
  | lessThan => "<"
  | lessEqual => "<="
  | greaterThan => ">"
  | greaterEqual => ">="
  | equal => "=="
  | notEqual => "!="

/-- How tightly the operator binds, from 0 for the loosest. -/
def level : BinaryOp → Nat
  | or => 0
  | and => 1
  | equal | notEqual => 2
  | lessThan | lessEqual | greaterThan | greaterEqual => 3
  | bitOr => 4
  | bitXor => 5
  | bitAnd => 6
  | shiftLeft | shiftRight => 7
  | add | subtract => 8
  | multiply | divide | modulo => 9
  | exponent => 10

/-- The number of levels. -/
def levels : Nat := 11

theorem level_lt (op : BinaryOp) : op.level < levels := by
  cases op <;> decide

end BinaryOp

inductive UnaryOp where
  | not | bitNot | toInteger | toFloat
deriving DecidableEq, Repr

namespace UnaryOp

def all : List UnaryOp := [not, bitNot, toInteger, toFloat]

theorem mem_all (op : UnaryOp) : op ∈ all := by
  cases op <;> decide

/-- The operator as a formula writes it. -/
def symbol : UnaryOp → String
  | not => "!"
  | bitNot => "~"
  | toInteger => "Int"
  | toFloat => "Float"

end UnaryOp

/-- A function of the numbers in a range of cells. -/
inductive Aggregate where
  | max | min | sum | mean
deriving DecidableEq, Repr

namespace Aggregate

def all : List Aggregate := [max, min, sum, mean]

theorem mem_all (fn : Aggregate) : fn ∈ all := by
  cases fn <;> decide

/-- The function as a formula writes it. -/
def name : Aggregate → String
  | max => "Max"
  | min => "Min"
  | sum => "Sum"
  | mean => "Mean"

end Aggregate

end CellFormula
