import CellFormula.Numeral

/-!
# Integers of the formula language

An integer has 64 bits and a sign. Arithmetic on integers is arithmetic on `Int` whose result is
brought back by `Integer.ofInt?`, which refuses a number that does not fit; so nothing ever wraps.
-/

namespace CellFormula

/-- An integer from `-2 ^ 63` up to `2 ^ 63 - 1`. -/
abbrev Integer := Int64

/-- Why a text is no integer. -/
inductive IntegerError where
  | empty
  | invalidDigit
  | tooLarge
  | tooSmall
deriving DecidableEq, Repr

def IntegerError.message : IntegerError → String
  | .empty => "cannot parse integer from empty string"
  | .invalidDigit => "invalid digit found in string"
  | .tooLarge => "number too large to fit in target type"
  | .tooSmall => "number too small to fit in target type"

namespace Integer

/-- Whether a number is within the bounds of an integer. -/
abbrev Fits (n : Int) : Prop := Int64.minValue.toInt ≤ n ∧ n ≤ Int64.maxValue.toInt

theorem fits_toInt (i : Integer) : Fits i.toInt := ⟨i.minValue_le_toInt, i.toInt_le⟩

/-- The integer equal to `n`, if it fits. -/
def ofInt? (n : Int) : Option Integer :=
  if fits : Fits n then some (Int64.ofIntLE n fits.1 fits.2) else none

theorem ofInt?_eq_some_iff {n : Int} {i : Integer} : ofInt? n = some i ↔ i.toInt = n := by
  unfold ofInt?
  split
  · rw [Option.some.injEq, ← Int64.toInt_inj, Int64.toInt_ofIntLE]
    exact eq_comm
  · next unfit =>
    simp only [reduceCtorEq, false_iff]
    intro equal
    exact unfit (equal ▸ fits_toInt i)

@[simp] theorem ofInt?_toInt (i : Integer) : ofInt? i.toInt = some i :=
  ofInt?_eq_some_iff.2 rfl

theorem ofInt?_eq_none_iff {n : Int} : ofInt? n = none ↔ ¬ Fits n := by
  unfold ofInt?
  split
  · next fits => exact iff_of_false nofun (fun unfit => unfit fits)
  · next unfit => simp only [unfit, not_false_iff]

/-- The decimal text, with a sign only if the integer is negative. -/
def text (i : Integer) : String := Numeral.ofInt i.toInt

/-- Reads digits to the right of those already read into `read`. The first fault from the left is
the one reported, be it a character that is no digit or a number that no longer fits. -/
def readDigits (negative : Bool) (read : Integer) : List Char → Except IntegerError Integer
  | [] => .ok read
  | c :: rest =>
    if c.isDigit then
      let digit : Int := Numeral.digitValue c
      match ofInt? (10 * read.toInt + if negative then -digit else digit) with
      | some next => readDigits negative next rest
      | none => .error (if negative then .tooSmall else .tooLarge)
    else .error .invalidDigit

/-- Reads an optional sign and at least one digit. -/
def read : List Char → Except IntegerError Integer
  | [] => .error .empty
  | ['+'] | ['-'] => .error .invalidDigit
  | '+' :: digits => readDigits false 0 digits
  | '-' :: digits => readDigits true 0 digits
  | digits => readDigits false 0 digits

end Integer

end CellFormula
