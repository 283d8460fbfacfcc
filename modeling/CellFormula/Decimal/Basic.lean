import CellFormula.Binary
import CellFormula.Numeral

/-!
# Decimal fractions and floats

`Decimal.toFloat` rounds a decimal to the nearest float. `Decimal.shortest` goes the other way: of
the decimals that round to a float it takes one with the fewest digits, and of those the nearest.
-/

namespace CellFormula

/-- The number `digits * 10 ^ exponent`. -/
structure Decimal where
  digits : Nat
  exponent : Int
deriving DecidableEq, Repr

namespace Decimal

/-- The decimal equal to a binary magnitude: a half is five tenths. -/
def ofBinary (b : Binary) : Decimal :=
  ⟨(b.mantissa <<< b.exponent.toNat) * Nat.pow 5 (-b.exponent).toNat, min b.exponent 0⟩

/-- The number of digits. -/
def length (d : Decimal) : Nat := (Numeral.digits d.digits).length

/-- The float nearest to the decimal. A nonzero decimal lies below `10 ^ order` and not below
`10 ^ (order - 1)`; from order 311 on that is past the greatest float, and below order -330 it is
less than half the least one. -/
def toFloat (d : Decimal) : Float :=
  let order := d.length + d.exponent
  if d.digits = 0 ∨ order < -330 then 0.0
  else if 310 < order then 1.0 / 0.0
  else Float.ofScientific d.digits (d.exponent < 0) d.exponent.natAbs

/-- The decimal with its last `drop` digits cut off. -/
def below (d : Decimal) (drop : Nat) : Decimal :=
  ⟨d.digits / Nat.pow 10 drop, d.exponent + drop⟩

/-- The next decimal above the one with its last `drop` digits cut off. -/
def above (d : Decimal) (drop : Nat) : Decimal :=
  ⟨d.digits / Nat.pow 10 drop + 1, d.exponent + drop⟩

/-- The accepted neighbour that has `drop` digits fewer. If both are accepted it is the nearer one,
and the one above if they are equally near. -/
def rounded? (accept : Decimal → Bool) (d : Decimal) (drop : Nat) : Option Decimal :=
  match accept (d.below drop), accept (d.above drop) with
  | true, true =>
    if 2 * (d.digits % Nat.pow 10 drop) < Nat.pow 10 drop then some (d.below drop)
    else some (d.above drop)
  | true, false => some (d.below drop)
  | false, true => some (d.above drop)
  | false, false => none

/-- The accepted neighbour with the fewest digits, if at most `drop` may go, or `d` if there is
none. -/
def shorten (accept : Decimal → Bool) (d : Decimal) : Nat → Decimal
  | 0 => d
  | drop + 1 => (d.rounded? accept (drop + 1)).getD (d.shorten accept drop)

/-- The decimal without the zeros at its end. -/
def trimZeros (d : Decimal) : Decimal :=
  if d.digits ≠ 0 ∧ d.digits % 10 = 0 then trimZeros ⟨d.digits / 10, d.exponent + 1⟩ else d
termination_by d.digits
decreasing_by omega

/-- The decimal with the fewest digits that rounds to the magnitude of a finite float. -/
def shortest (x : Float) : Decimal :=
  let exact := ofBinary (Binary.ofFloat x)
  (exact.shorten (fun d => d.toFloat == x.abs) (exact.length - 1)).trimZeros

end Decimal

end CellFormula
