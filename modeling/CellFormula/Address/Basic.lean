import CellFormula.Address.Column

/-!
# Cell addresses

An address is a column and a row. It is written as a reference such as `{AB,12}` when the column
has letters and the row is not negative, and as a plain pair otherwise.
-/

namespace CellFormula

/-- The place of a cell: column `x` and row `y`. -/
@[ext] structure Address where
  x : Integer
  y : Integer
deriving DecidableEq, Repr

namespace Address

/-- Addresses are ordered by column, and by row within a column. -/
instance : LT Address where
  lt a b := a.x < b.x ∨ a.x = b.x ∧ a.y < b.y

instance (a b : Address) : Decidable (a < b) :=
  inferInstanceAs (Decidable (a.x < b.x ∨ a.x = b.x ∧ a.y < b.y))

theorem lt_iff {a b : Address} : a < b ↔ a.x < b.x ∨ a.x = b.x ∧ a.y < b.y := Iff.rfl

theorem lt_iff_toInt {a b : Address} :
    a < b ↔ a.x.toInt < b.x.toInt ∨ a.x.toInt = b.x.toInt ∧ a.y.toInt < b.y.toInt := by
  rw [lt_iff, Int64.lt_iff_toInt_lt, Int64.lt_iff_toInt_lt, Int64.toInt_inj]

theorem lt_trans {a b c : Address} (first : a < b) (second : b < c) : a < c := by
  rw [lt_iff_toInt] at *
  omega

theorem lt_irrefl (a : Address) : ¬ a < a := by
  rw [lt_iff_toInt]
  omega

theorem lt_of_not_lt_of_ne {a b : Address} (notLess : ¬ a < b) (different : a ≠ b) : b < a := by
  have apart : a.x.toInt ≠ b.x.toInt ∨ a.y.toInt ≠ b.y.toInt := by
    rw [← Decidable.not_and_iff_not_or_not, Int64.toInt_inj, Int64.toInt_inj]
    exact fun equal => different (Address.ext equal.1 equal.2)
  rw [lt_iff_toInt] at *
  omega

/-- The reference by which formulas name the address, if it has one. -/
def reference? (a : Address) : Option String :=
  if a.y.toInt < 0 then none
  else (Column.letters? a.x).map fun letters => "\x7b" ++ letters ++ "," ++ a.y.text ++ "\x7d"

/-- The text of an address: its reference, or else its coordinates in parentheses. -/
def text (a : Address) : String :=
  a.reference?.getD ("(" ++ a.x.text ++ ", " ++ a.y.text ++ ")")

end Address

end CellFormula
