import CellFormula.Error

/-!
# Arithmetic

Integer operations are exact operations on `Int` whose result must fit. Division and remainder round
towards negative infinity, so the remainder has the sign of the divisor, for floats as well.
-/

namespace CellFormula

/-- The result of an operation on integers, given the exact result `n`. -/
def fit (left : Integer) (op : BinaryOp) (right : Integer) (n : Int) :
    Except FormulaError Integer :=
  match Integer.ofInt? n with
  | some i => .ok i
  | none => .error (.overflow (.operands left op right))

/-- The quotient, rounded down. -/
def floorDiv (left right : Integer) : Except FormulaError Integer :=
  if right.toInt = 0 then .error (.divisionByZero (.operands left .divide right))
  else fit left .divide right (left.toInt.fdiv right.toInt)

/-- The remainder that `floorDiv` leaves. -/
def floorMod (left right : Integer) : Except FormulaError Integer :=
  if right.toInt = 0 then .error (.divisionByZero (.operands left .modulo right))
  else fit left .modulo right (left.toInt.fmod right.toInt)

/-- A power. Those of -1, 0 and 1 depend only on whether the exponent is zero, odd or even; of any
other base the sixty-fourth power is already too large. -/
def power (base exponent : Integer) : Except FormulaError Integer :=
  let n := exponent.toInt.toNat
  if exponent.toInt < 0 then .error (.operand (.negativeExponent base exponent))
  else if base.toInt.natAbs ≤ 1 then
    fit base .exponent exponent (base.toInt.pow (if n = 0 then 0 else 2 - n % 2))
  else if 64 ≤ n then .error (.overflow (.operands base .exponent exponent))
  else fit base .exponent exponent (base.toInt.pow n)

/-- Shifts to the left by an amount that is not negative. -/
def shiftUp (n amount : Integer) : Except FormulaError Integer :=
  if n.toInt = 0 then .ok 0
  else if 64 ≤ amount.toInt then .error (.overflow (.operands n .shiftLeft amount))
  else fit n .shiftLeft amount (n.toInt <<< amount.toInt.toNat)

/-- Shifts to the right by an amount that is not negative. After 63 places only the sign is left. -/
def shiftDown (n amount : Integer) : Except FormulaError Integer :=
  fit n .shiftRight amount (n.toInt >>> min 63 amount.toInt.toNat)

/-- The amount of a shift the other way, or the greatest integer if that does not fit. -/
def reversed (amount : Integer) : Integer :=
  (Integer.ofInt? (-amount.toInt)).getD Int64.maxValue

/-- Shifts to the left, or to the right by a negative amount. -/
def shiftLeft (n amount : Integer) : Except FormulaError Integer :=
  if amount.toInt < 0 then shiftDown n (reversed amount) else shiftUp n amount

/-- Shifts to the right, or to the left by a negative amount. -/
def shiftRight (n amount : Integer) : Except FormulaError Integer :=
  if amount.toInt < 0 then shiftUp n (reversed amount) else shiftDown n amount

/-- The float nearest to an integer. -/
def toFloat (n : Integer) : Float := Float.ofInt n.toInt

/-- What is left of `x` after taking `y` away as often as it fits, with the sign of `x`. It is
computed exactly, and it is always a float. -/
def floatRem (x y : Float) : Float :=
  if x.isNaN || y.isNaN || x.isInf || y == 0.0 then 0.0 / 0.0
  else if y.isInf then x
  else
    let magnitude := (Decimal.ofBinary ((Binary.ofFloat x).rem (Binary.ofFloat y))).toFloat
    if isNegative x then -magnitude else magnitude

/-- The remainder with the sign of the divisor. -/
def floatMod (x y : Float) : Float :=
  let rem := floatRem x y
  if rem != 0.0 && decide (rem < 0.0) != decide (y < 0.0) then rem + y else rem

end CellFormula
