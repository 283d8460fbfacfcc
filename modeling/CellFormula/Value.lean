import CellFormula.Decimal.Notation
import CellFormula.Integer

/-!
# Values

What a formula evaluates to: an integer, a float, a truth value or a string.
-/

namespace CellFormula

inductive ValueType where
  | integer | float | boolean | string
deriving DecidableEq, Repr

def ValueType.name : ValueType → String
  | .integer => "Integer"
  | .float => "Float"
  | .boolean => "Boolean"
  | .string => "String"

inductive Value where
  | integer (n : Integer)
  | float (x : Float)
  | boolean (b : Bool)
  | string (s : String)
deriving DecidableEq, Repr

namespace Value

def type : Value → ValueType
  | integer _ => .integer
  | float _ => .float
  | boolean _ => .boolean
  | string _ => .string

/-- Whether the value takes part in the fold of a range. -/
def isNumeric : Value → Bool
  | integer _ | float _ => true
  | boolean _ | string _ => false

/-- The value as it is shown. Strings are shown without quotes. -/
def text : Value → String
  | integer n => Integer.text n
  | float x => floatText x
  | boolean b => if b then "true" else "false"
  | string s => s

end Value

end CellFormula
