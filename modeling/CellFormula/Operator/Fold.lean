import CellFormula.Operator.Apply

/-!
# Folding numbers

The functions of a range, applied to the numbers found there, in order. A sum is an integer until a
float joins it. The greatest and the least number are returned as they stand.
-/

namespace CellFormula

/-- Adds a number to a sum. -/
def addNumber (total value : Value) : Except FormulaError Value :=
  match total, value with
  | .integer m, .integer n => (fit m .add n (m.toInt + n.toInt)).map .integer
  | .integer m, .float y => .ok (.float (toFloat m + y))
  | .float x, .integer n => .ok (.float (x + toFloat n))
  | .float x, .float y => .ok (.float (x + y))
  | _, _ => .error (.type (.summand value.type))

/-- How two numbers compare; an integer is rounded to be compared with a float. -/
def compareNumbers (left right : Value) : Option Ordering :=
  match left, right with
  | .integer m, .integer n => some (compare m.toInt n.toInt)
  | .integer m, .float y => compareFloats (toFloat m) y
  | .float x, .integer n => compareFloats x (toFloat n)
  | .float x, .float y => compareFloats x y
  | _, _ => none

/-- The first value that no later one beats by comparing as `wanted`. -/
def extreme (wanted : Ordering) : Value → List Value → Value
  | best, [] => best
  | best, value :: rest =>
    extreme wanted (if compareNumbers value best = some wanted then value else best) rest

namespace Aggregate

/-- Folds numbers. A mean is folded as a sum, which `meanOf` then divides. -/
def fold (fn : Aggregate) (values : List Value) : Except FormulaError Value :=
  match fn, values with
  | sum, _ | mean, _ => values.foldlM addNumber (.integer 0)
  | max, value :: rest => .ok (extreme .gt value rest)
  | min, value :: rest => .ok (extreme .lt value rest)
  | max, [] | min, [] => .error (.operand (.noNumbers fn))

end Aggregate

/-- The sum of a range divided by the span of the range. -/
def meanOf (total : Value) (span : Option Integer) : Except FormulaError Value :=
  match span with
  | none => .error (.overflow .span)
  | some span =>
    if span.toInt = 0 then .error (.divisionByZero .emptySpan)
    else
      match total with
      | .integer n => (floorDiv n span).map .integer
      | .float x => .ok (.float (x / toFloat span))
      | _ => .error (.type (.total total.type))

end CellFormula
