/-!
# The exact value of a float

A finite float is a natural number times a power of two. `Binary.ofFloat` reads that magnitude off
the bits, and what must not be rounded is computed on it: the whole part and the remainder.
-/

namespace CellFormula

/-- The magnitude `mantissa * 2 ^ exponent`. -/
structure Binary where
  mantissa : Nat
  exponent : Int
deriving DecidableEq, Repr

namespace Binary

/-- The magnitude of a finite float. -/
def ofFloat (x : Float) : Binary :=
  let biased := ((x.toBits >>> 52) &&& 0x7FF).toNat
  let fraction := (x.toBits &&& 0xFFFFFFFFFFFFF).toNat
  if biased = 0 then ⟨fraction, -1074⟩ else ⟨0x10000000000000 + fraction, biased - 1075⟩

/-- The whole part. -/
def floor (b : Binary) : Nat :=
  (b.mantissa <<< b.exponent.toNat) >>> (-b.exponent).toNat

/-- Whether nothing stands after the point. -/
def isWhole (b : Binary) : Bool :=
  b.mantissa % (1 <<< (-b.exponent).toNat) = 0

/-- What is left of `a` after taking `b` away as often as it fits. -/
def rem (a b : Binary) : Binary :=
  let low := min a.exponent b.exponent
  ⟨(a.mantissa <<< (a.exponent - low).toNat) % (b.mantissa <<< (b.exponent - low).toNat), low⟩

end Binary

/-- Whether the sign bit of the float is set. -/
def isNegative (x : Float) : Bool :=
  x.toBits >>> 63 = 1

/-- The whole part of a finite float, with its sign. -/
def truncate (x : Float) : Int :=
  if isNegative x then -(Binary.ofFloat x).floor else (Binary.ofFloat x).floor

end CellFormula
