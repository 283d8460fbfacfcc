import CellFormula.Expr.Basic

/-!
# The text of an expression

Operands that are not a single word stand in parentheses. No literal has a sign, so negative numbers
are written as subtractions, and the floats that are no decimal as quotients.
-/

namespace CellFormula

def parenthesized (text : String) : String := "( " ++ text ++ " )"

/-- The formula text of a value. A string with a quote in it has none that reads back. -/
def Value.literal : Value → String
  | .integer n =>
    if n = Int64.minValue then
      parenthesized ("0 - " ++ Integer.text Int64.maxValue) ++ " - 1"
    else if n.toInt < 0 then "0 - " ++ Numeral.ofNat n.toInt.natAbs
    else Integer.text n
  | .float x =>
    if x.isNaN then "0.0 / 0.0"
    else if x.isInf then
      if isNegative x then "0.0 - " ++ parenthesized "1.0 / 0.0" else "1.0 / 0.0"
    else if isNegative x then "0.0 - " ++ floatText (-x)
    else floatText x
  | .boolean b => if b then "True" else "False"
  | .string s => "\"" ++ s ++ "\""

/-- Whether the value is written as a single word. -/
def Value.isWord : Value → Bool
  | .integer n => 0 ≤ n.toInt
  | .float x => x.isFinite && !isNegative x
  | .boolean _ | .string _ => true

namespace Expr

/-- Whether the expression is written as a single word. -/
def isWord : Expr → Bool
  | value v => v.isWord
  | reference _ => true
  | _ => false

/-- The formula text of an expression. -/
def text : Expr → String
  | value v => v.literal
  | reference a => a.text
  | unary op operand =>
    op.symbol ++ " " ++ (if operand.isWord then operand.text else parenthesized operand.text)
  | binary op left right =>
    (if left.isWord then left.text else parenthesized left.text) ++ " " ++ op.symbol ++ " " ++
      (if right.isWord then right.text else parenthesized right.text)
  | aggregate fn range => fn.name ++ " " ++ range.start.text ++ " " ++ range.stop.text

end Expr

end CellFormula
