import CellFormula.Operator.Arithmetic

/-!
# Applying operators

Each operator accepts certain types of operands and refuses all others before it computes anything.
Integers and floats never mix.
-/

namespace CellFormula

/-- How two floats compare; not at all if one of them is no number. -/
def compareFloats (x y : Float) : Option Ordering :=
  if x < y then some .lt else if y < x then some .gt else if x == y then some .eq else none

namespace BinaryOp

/-- Whether a comparison holds between operands that compare in this way. -/
def holds (op : BinaryOp) (ordering : Option Ordering) : Bool :=
  match op with
  | lessThan => ordering = some .lt
  | lessEqual => ordering = some .lt ∨ ordering = some .eq
  | greaterThan => ordering = some .gt
  | greaterEqual => ordering = some .gt ∨ ordering = some .eq
  | equal => ordering = some .eq
  | notEqual => ordering ≠ some .eq
  | _ => false

/-- The refusal of operands of these types. -/
def refuse (op : BinaryOp) (left right : ValueType) : FormulaError :=
  match op with
  | and | or | bitAnd | bitOr | bitXor | shiftLeft | shiftRight =>
    .type (.operands op left right)
  | _ => .operand (.operands op left right)

def applyIntegers (op : BinaryOp) (left right : Integer) : Except FormulaError Value :=
  match op with
  | add => (fit left op right (left.toInt + right.toInt)).map .integer
  | subtract => (fit left op right (left.toInt - right.toInt)).map .integer
  | multiply => (fit left op right (left.toInt * right.toInt)).map .integer
  | divide => (floorDiv left right).map .integer
  | modulo => (floorMod left right).map .integer
  | exponent => (power left right).map .integer
  | bitAnd => .ok (.integer (left &&& right))
  | bitOr => .ok (.integer (left ||| right))
  | bitXor => .ok (.integer (left ^^^ right))
  | shiftLeft => (CellFormula.shiftLeft left right).map .integer
  | shiftRight => (CellFormula.shiftRight left right).map .integer
  | lessThan | lessEqual | greaterThan | greaterEqual | equal | notEqual =>
    .ok (.boolean (op.holds (some (compare left.toInt right.toInt))))
  | and | or => .error (op.refuse .integer .integer)

def applyFloats (op : BinaryOp) (left right : Float) : Except FormulaError Value :=
  match op with
  | add => .ok (.float (left + right))
  | subtract => .ok (.float (left - right))
  | multiply => .ok (.float (left * right))
  | divide => .ok (.float (left / right))
  | modulo => .ok (.float (floatMod left right))
  | exponent => .ok (.float (left.pow right))
  | lessThan | lessEqual | greaterThan | greaterEqual | equal | notEqual =>
    .ok (.boolean (op.holds (compareFloats left right)))
  | and | or | bitAnd | bitOr | bitXor | shiftLeft | shiftRight =>
    .error (op.refuse .float .float)

/-- Truth values can be told apart but not ordered. -/
def applyBooleans (op : BinaryOp) (left right : Bool) : Except FormulaError Value :=
  match op with
  | and => .ok (.boolean (left && right))
  | or => .ok (.boolean (left || right))
  | equal => .ok (.boolean (left == right))
  | notEqual => .ok (.boolean (left != right))
  | lessThan | lessEqual | greaterThan | greaterEqual => .error (.operand (.unordered op))
  | _ => .error (op.refuse .boolean .boolean)

/-- Strings are joined by `+`, and ordered by code point. -/
def applyStrings (op : BinaryOp) (left right : String) : Except FormulaError Value :=
  match op with
  | add => .ok (.string (left ++ right))
  | lessThan | lessEqual | greaterThan | greaterEqual | equal | notEqual =>
    .ok (.boolean (op.holds (some (compare left right))))
  | _ => .error (op.refuse .string .string)

/-- The value of the operator at two operands. -/
def apply (op : BinaryOp) (left right : Value) : Except FormulaError Value :=
  match left, right with
  | .integer m, .integer n => op.applyIntegers m n
  | .float x, .float y => op.applyFloats x y
  | .boolean a, .boolean b => op.applyBooleans a b
  | .string s, .string t => op.applyStrings s t
  | _, _ => .error (op.refuse left.type right.type)

/-- What a logical operator amounts to when its left operand settles that alone. -/
def decided? : BinaryOp → Value → Option Bool
  | and, .boolean false => some false
  | or, .boolean true => some true
  | _, _ => none

end BinaryOp

namespace UnaryOp

/-- The type of operand that the operator takes. -/
def operandType : UnaryOp → ValueType
  | not => .boolean
  | bitNot => .integer
  | toInteger => .float
  | toFloat => .integer

/-- The value of the operator at an operand. A float becomes an integer without its fraction, if
its whole part fits. -/
def apply (op : UnaryOp) (operand : Value) : Except FormulaError Value :=
  match op, operand with
  | not, .boolean b => .ok (.boolean !b)
  | bitNot, .integer n => .ok (.integer (~~~n))
  | toInteger, .float x =>
    match if x.isFinite then Integer.ofInt? (truncate x) else none with
    | some n => .ok (.integer n)
    | none => .error (.operand (.noInteger x))
  | toFloat, .integer n => .ok (.float (CellFormula.toFloat n))
  | _, _ => .error (.type (.operand op op.operandType operand.type))

end UnaryOp

end CellFormula
