import CellFormula.Address.Basic

/-!
# Ranges

A range is given by two corners, in any order, and covers the rectangle between them. Its cells are
walked column by column: `Range.next?` steps from one address to the following one.
-/

namespace CellFormula

/-- A rectangle of addresses, with its corners as they were written. -/
structure Range where
  start : Address
  stop : Address
deriving DecidableEq, Repr

namespace Range

/-- The corner with the least coordinates. -/
def topLeft (r : Range) : Address := ⟨min r.start.x r.stop.x, min r.start.y r.stop.y⟩

/-- The corner with the greatest coordinates. -/
def bottomRight (r : Range) : Address := ⟨max r.start.x r.stop.x, max r.start.y r.stop.y⟩

/-- An address is in a range when both its coordinates lie between those of the corners. -/
instance : Membership Address Range where
  mem r a :=
    (r.topLeft.x ≤ a.x ∧ a.x ≤ r.bottomRight.x) ∧ (r.topLeft.y ≤ a.y ∧ a.y ≤ r.bottomRight.y)

instance (a : Address) (r : Range) : Decidable (a ∈ r) :=
  inferInstanceAs (Decidable
    ((r.topLeft.x ≤ a.x ∧ a.x ≤ r.bottomRight.x) ∧ (r.topLeft.y ≤ a.y ∧ a.y ≤ r.bottomRight.y)))

/-- The number of addresses in the rectangle. -/
def area (r : Range) : Nat :=
  (r.bottomRight.x.toInt - r.topLeft.x.toInt + 1).toNat *
    (r.bottomRight.y.toInt - r.topLeft.y.toInt + 1).toNat

/-- The number of addresses, as far as 128 bits can count them. -/
def count? (r : Range) : Option Nat :=
  if r.area < Nat.pow 2 128 then some r.area else none

/-- The width times the height between the corners as written, each of them negative when it runs
backwards. There is none if either, or the product, is no integer of the language. -/
def spanProduct? (r : Range) : Option Integer := do
  let width ← Integer.ofInt? (r.stop.x.toInt - r.start.x.toInt)
  let height ← Integer.ofInt? (r.stop.y.toInt - r.start.y.toInt)
  Integer.ofInt? (width.toInt * height.toInt)

/-- The address after `a` in the walk: the next row, or else the top of the next column. -/
def next? (r : Range) (a : Address) : Option Address :=
  if a.y < r.bottomRight.y then some ⟨a.x, a.y + 1⟩
  else if a.x < r.bottomRight.x then some ⟨a.x + 1, r.topLeft.y⟩
  else none

theorem toInt_add_one {a b : Integer} (below : a < b) : (a + 1).toInt = a.toInt + 1 := by
  have := Int64.lt_iff_toInt_lt.1 below
  have := a.le_toInt
  have := b.toInt_lt
  rw [Int64.toInt_add, Int64.toInt_one, Int.bmod_eq_of_le] <;> omega

/-- The columns and rows still ahead of an address in the walk. -/
def ahead (r : Range) (a : Address) : Nat × Nat :=
  ((r.bottomRight.x.toInt - a.x.toInt).toNat, (r.bottomRight.y.toInt - a.y.toInt).toNat)

theorem ahead_decreases {r : Range} {a b : Address} (step : r.next? a = some b) :
    Prod.Lex (· < ·) (· < ·) (r.ahead b) (r.ahead a) := by
  unfold next? at step
  split at step
  · next below =>
    cases step
    have := Int64.lt_iff_toInt_lt.1 below
    apply Prod.Lex.right
    rw [toInt_add_one below]
    omega
  · split at step
    · next left =>
      cases step
      have := Int64.lt_iff_toInt_lt.1 left
      apply Prod.Lex.left
      rw [toInt_add_one left]
      omega
    · cases step

/-- The addresses of the walk from `a` on. -/
def cellsFrom (r : Range) (a : Address) : List Address :=
  a :: match _step : r.next? a with
    | none => []
    | some b => r.cellsFrom b
termination_by r.ahead a
decreasing_by exact ahead_decreases _step

/-- All addresses of the range, column by column. -/
def cells (r : Range) : List Address := r.cellsFrom r.topLeft

/-- At most `n` addresses of the walk from `a` on. -/
def firstCellsFrom (r : Range) : Nat → Option Address → List Address
  | 0, _ | _ + 1, none => []
  | n + 1, some a => a :: r.firstCellsFrom n (r.next? a)

/-- The first `n` addresses of the range, or all if there are fewer. -/
def firstCells (r : Range) (n : Nat) : List Address := r.firstCellsFrom n (some r.topLeft)

def text (r : Range) : String := r.start.text ++ ":" ++ r.stop.text

end Range

end CellFormula
