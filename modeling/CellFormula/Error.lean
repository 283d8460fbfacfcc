import CellFormula.Tree.Basic
import CellFormula.Value

/-!
# Errors

Everything that can go wrong between the text of a formula and its value. Each constructor of
`FormulaError` is a kind of error, and its argument the cause; `FormulaError.message` is the only
place that words them.
-/

namespace CellFormula

inductive ParseError where
  /-- The formula ends where an operand is due. -/
  | unfinished
  /-- The token is no operand and stands where one is due. -/
  | noOperand (token : Token)
  /-- The token follows a complete formula. -/
  | leftover (token : Token)
  /-- A corner of a range is due. -/
  | noCorner (found : Option Token)
  /-- A closing parenthesis is due. -/
  | unclosed (found : Option Token)
  /-- An assignment stands inside a formula. -/
  | nestedAssignment
  /-- No value can be computed for a node of this kind. -/
  | meaningless (kind : TokenKind)
  /-- The corner of a range is some other tree than a reference. -/
  | badCorner (tree : Tree)
deriving DecidableEq, Repr

inductive TypeError where
  | integerLiteral (text : String) (cause : IntegerError)
  | floatLiteral (text : String) (cause : FloatError)
  | booleanLiteral (text : String)
  | operands (op : BinaryOp) (left right : ValueType)
  | operand (op : UnaryOp) (expected found : ValueType)
  | summand (found : ValueType)
  | total (found : ValueType)
deriving DecidableEq, Repr

inductive OperandError where
  | operands (op : BinaryOp) (left right : ValueType)
  | unordered (op : BinaryOp)
  | negativeExponent (base exponent : Integer)
  | noInteger (x : Float)
  | noNumbers (fn : Aggregate)
deriving DecidableEq, Repr

inductive CoordinateError where
  | malformed (cause : AddressError)
  | vacant (address : Address)
deriving DecidableEq, Repr

inductive DivisionError where
  | operands (left : Integer) (op : BinaryOp) (right : Integer)
  | emptySpan
deriving DecidableEq, Repr

inductive OverflowError where
  | operands (left : Integer) (op : BinaryOp) (right : Integer)
  | span
deriving DecidableEq, Repr

inductive FormulaError where
  | lex (text : String) (span : Span)
  | parse (cause : ParseError)
  | type (cause : TypeError)
  | operand (cause : OperandError)
  | coordinates (cause : CoordinateError)
  | divisionByZero (cause : DivisionError)
  | overflow (cause : OverflowError)
  | circular (address : Address)
  | depthLimit (limit : Nat)
deriving DecidableEq, Repr

/-- What was found in place of a token that was due. -/
def foundText (found : Option Token) : String :=
  (found.map Token.text).getD "end of formula"

def operandsText (op : BinaryOp) (left right : ValueType) : String :=
  "cannot apply '" ++ op.symbol ++ "' to " ++ left.name ++ " and " ++ right.name

def operationText (left : Integer) (op : BinaryOp) (right : Integer) : String :=
  Integer.text left ++ " " ++ op.symbol ++ " " ++ Integer.text right

def ParseError.message : ParseError → String
  | .unfinished => "Parse error: Unexpected end of formula"
  | .noOperand token => "Parse error: Unexpected token " ++ token.text
  | .leftover token => "Parse error: Unexpected token " ++ token.text ++ " after expression"
  | .noCorner found =>
    "Parse error: Expected " ++ TokenKind.reference.name ++ ", got " ++ foundText found
  | .unclosed found =>
    "Parse error: Unmatched '(': Parse error: Expected " ++ TokenKind.rightParen.name ++
      ", got " ++ foundText found
  | .nestedAssignment => "Parse error: Cell assignment must be the whole formula"
  | .meaningless kind => "Parse error: failed to parse " ++ kind.name ++ " node"
  | .badCorner tree =>
    "Parse error: range corner must be a cell dereference, got " ++ tree.text

def TypeError.message : TypeError → String
  | .integerLiteral text cause =>
    "Type error: '" ++ text ++ "' is not an integer: " ++ cause.message
  | .floatLiteral text cause => "Type error: '" ++ text ++ "' is not a float: " ++ cause.message
  | .booleanLiteral text => "Type error: '" ++ text ++ "' is not boolean"
  | .operands op left right => "Type error: " ++ operandsText op left right
  | .operand op expected found =>
    "Type error: " ++ op.symbol ++ " expects " ++ expected.name ++ ", got " ++ found.name
  | .summand found => "Type error: cannot sum " ++ found.name ++ " value"
  | .total found => "Type error: mean of " ++ found.name ++ " value"

def OperandError.message : OperandError → String
  | .operands op left right => "Invalid operand: " ++ operandsText op left right
  | .unordered op => "Invalid operand: Booleans cannot be ordered with '" ++ op.symbol ++ "'"
  | .negativeExponent base exponent =>
    "Invalid operand: negative exponent " ++ Integer.text exponent ++ " for Integer base " ++
      Integer.text base
  | .noInteger x => "Invalid operand: " ++ compactText x ++ " cannot be converted to Integer"
  | .noNumbers fn => "Invalid operand: " ++ fn.name ++ " of a range with no numeric cells"

def CoordinateError.message : CoordinateError → String
  | .malformed cause => "Invalid coordinates: " ++ cause.message
  | .vacant address => "Invalid coordinates: no cell at " ++ address.text

def DivisionError.message : DivisionError → String
  | .operands left op right => "Division by zero: " ++ operationText left op right
  | .emptySpan => "Division by zero: mean over a range with zero span"

def OverflowError.message : OverflowError → String
  | .operands left op right => "Integer overflow: " ++ operationText left op right
  | .span => "Integer overflow: range span"

def FormulaError.message : FormulaError → String
  | .lex text span =>
    "Lex error: unknown character " ++ text ++ " at " ++ Numeral.ofNat span.start ++ ".." ++
      Numeral.ofNat span.stop
  | .parse cause => cause.message
  | .type cause => cause.message
  | .operand cause => cause.message
  | .coordinates cause => cause.message
  | .divisionByZero cause => cause.message
  | .overflow cause => cause.message
  | .circular address => "Circular reference detected involving cell " ++ address.text
  | .depthLimit limit =>
    "Dereference depth limit of " ++ Numeral.ofNat limit ++ " exceeded"

end CellFormula
