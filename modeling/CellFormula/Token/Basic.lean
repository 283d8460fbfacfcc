import CellFormula.Address.Basic
import CellFormula.Operator.Basic
import CellFormula.Text.Span

/-!
# Tokens

A token is a word of a formula with its kind and place. An assignment such as `{A,1}[1 + 2]` is one
token, whose source is the text between the square brackets.
-/

namespace CellFormula

inductive TokenKind where
  | assignment
  | reference | integer | float | boolean | string
  | leftParen | rightParen
  | unary (op : UnaryOp)
  | aggregate (fn : Aggregate)
  | binary (op : BinaryOp)
deriving DecidableEq, Repr

namespace TokenKind

/-- Whether a token of this kind is an operand by itself. -/
def isAtom : TokenKind → Bool
  | reference | integer | float | boolean | string => true
  | _ => false

/-- The name of the kind in messages. -/
def name : TokenKind → String
  | assignment => "CellAssignment"
  | reference => "CellDereference"
  | integer => "IntegerPrim"
  | float => "FloatPrim"
  | boolean => "BooleanPrim"
  | string => "StringPrim"
  | leftParen => "LeftParen"
  | rightParen => "RightParen"
  | unary .not => "Not"
  | unary .bitNot => "BitNot"
  | unary .toInteger => "IntCast"
  | unary .toFloat => "FloatCast"
  | aggregate fn => fn.name
  | binary .exponent => "Exponent"
  | binary .multiply => "Multiply"
  | binary .divide => "Divide"
  | binary .modulo => "Modulo"
  | binary .add => "Addition"
  | binary .subtract => "Subtraction"
  | binary .shiftLeft => "LeftShift"
  | binary .shiftRight => "RightShift"
  | binary .bitAnd => "BitAnd"
  | binary .bitOr => "BitOr"
  | binary .bitXor => "BitXor"
  | binary .lessThan => "LessThan"
  | binary .lessEqual => "LessThanEquals"
  | binary .greaterThan => "GreaterThan"
  | binary .greaterEqual => "GreaterThanEquals"
  | binary .equal => "Equals"
  | binary .notEqual => "NotEquals"
  | binary .and => "LogAnd"
  | binary .or => "LogOr"

end TokenKind

/-- A word of a formula. A string token's source leaves out the quotes around it; only assignments
have a target. -/
structure Token where
  kind : TokenKind
  source : String
  span : Span
  target : Option Address
deriving DecidableEq, Repr

/-- The token as messages show it. -/
def Token.text (t : Token) : String :=
  t.kind.name ++ "(" ++ t.source ++ ")@" ++ Numeral.ofNat t.span.start ++ ".." ++
    Numeral.ofNat t.span.stop ++ (t.target.map fun a => " -> " ++ a.text).getD ""

end CellFormula
