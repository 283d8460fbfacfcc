import CellFormula.Proofs.Address.Reference
import CellFormula.Proofs.Operator.Exact
import CellFormula.Proofs.Range

/-!
# Spans of ranges

The span of a range is the product of its width and its height, and each of the three must be an
integer. So there is no span between corners that are too far apart to have a width, even if the
height is zero and the product with it. Corners that a formula can name are never so far apart.

Main statements: `spanProduct?_of_near` and `spanProduct?_of_farApart`, which ranges have a span;
`fits_span_iff`, which spans are lost although they would fit.
-/

namespace CellFormula

open Integer

/-- If a factor does not fit then the product does not either, unless the other factor is zero, or
is -1 and turns `2 ^ 63` into the least integer. -/
theorem Integer.fits_mul_iff {m n : Int} (unfit : ¬ Fits m) :
    Fits (m * n) ↔ n = 0 ∨ m = 2 ^ 63 ∧ n = -1 := by
  have magnitude : (m * n).natAbs = m.natAbs * n.natAbs := Int.natAbs_mul m n
  rw [fits_iff] at unfit
  rw [fits_iff]
  obtain rfl | rfl | rfl | two : n = 0 ∨ n = 1 ∨ n = -1 ∨ 2 ≤ n.natAbs := by omega
  · simp
  · rw [Int.mul_one]
    omega
  · rw [Int.mul_neg_one]
    omega
  · have double : m.natAbs * 2 ≤ m.natAbs * n.natAbs := Nat.mul_le_mul_left _ two
    omega

namespace Range

variable {r : Range} {a : Address}

/-! ## Width, height and span -/

/-- The way from the one corner to the other in columns, negative if it goes to the left. -/
def width (r : Range) : Int := r.stop.x.toInt - r.start.x.toInt

/-- The way from the one corner to the other in rows, negative if it goes up. -/
def height (r : Range) : Int := r.stop.y.toInt - r.start.y.toInt

/-- The width times the height between the corners as written, without bounds. -/
def span (r : Range) : Int :=
  (r.stop.x.toInt - r.start.x.toInt) * (r.stop.y.toInt - r.start.y.toInt)

theorem span_eq (r : Range) : r.span = r.width * r.height := rfl

/-- The range is a single column or a single row. -/
def Flat (r : Range) : Prop := r.start.x = r.stop.x ∨ r.start.y = r.stop.y

instance (r : Range) : Decidable r.Flat :=
  inferInstanceAs (Decidable (r.start.x = r.stop.x ∨ r.start.y = r.stop.y))

theorem flat_iff : r.Flat ↔ r.width = 0 ∨ r.height = 0 := by
  rw [Flat, width, height, ← Int64.toInt_inj, ← Int64.toInt_inj]
  omega

theorem span_of_flat (flat : r.Flat) : r.span = 0 :=
  Int.mul_eq_zero.2 (flat_iff.1 flat)

/-! ## The other corners -/

/-- The rectangle from its other two corners, beginning in the other column. -/
def mirrorX (r : Range) : Range := ⟨⟨r.stop.x, r.start.y⟩, ⟨r.start.x, r.stop.y⟩⟩

/-- The rectangle from its other two corners, beginning in the other row. -/
def mirrorY (r : Range) : Range := ⟨⟨r.start.x, r.stop.y⟩, ⟨r.stop.x, r.start.y⟩⟩

theorem span_mirrorX (r : Range) : r.mirrorX.span = -r.span := by
  rw [span, span, ← Int.neg_mul, Int.neg_sub]
  rfl

theorem span_mirrorY (r : Range) : r.mirrorY.span = -r.span := by
  rw [span, span, ← Int.mul_neg, Int.neg_sub]
  rfl

theorem mem_mirrorX : a ∈ r.mirrorX ↔ a ∈ r := by
  simp only [mem_iff_toInt, topLeft, bottomRight, mirrorX, Integer.toInt_min, Integer.toInt_max]
  omega

theorem mem_mirrorY : a ∈ r.mirrorY ↔ a ∈ r := by
  simp only [mem_iff_toInt, topLeft, bottomRight, mirrorY, Integer.toInt_min, Integer.toInt_max]
  omega

/-! ## Which ranges have a span -/

/-- The corners are so far apart, in columns or in rows, that the way between them is no integer. -/
def FarApart (r : Range) : Prop := ¬ (Fits r.width ∧ Fits r.height)

instance (r : Range) : Decidable r.FarApart :=
  inferInstanceAs (Decidable (¬ (Fits r.width ∧ Fits r.height)))

/-- From the first column and row on, nothing is farther away than the greatest integer. -/
theorem not_farApart_of_referable (first : r.start.Referable) (last : r.stop.Referable) :
    ¬ r.FarApart := by
  obtain ⟨startColumn, startRow⟩ := first
  obtain ⟨stopColumn, stopRow⟩ := last
  have := fits_iff.1 (fits_toInt r.start.x)
  have := fits_iff.1 (fits_toInt r.start.y)
  have := fits_iff.1 (fits_toInt r.stop.x)
  have := fits_iff.1 (fits_toInt r.stop.y)
  rw [FarApart, Classical.not_not, fits_iff, fits_iff, width, height]
  omega

/-- If the width and the height are integers of the language, only their product may be none. -/
theorem spanProduct?_of_near (near : ¬ r.FarApart) : r.spanProduct? = ofInt? r.span := by
  obtain ⟨widthFits, heightFits⟩ := Classical.not_not.1 near
  obtain ⟨w, sameWidth⟩ := exists_toInt_eq widthFits
  obtain ⟨h, sameHeight⟩ := exists_toInt_eq heightFits
  rw [spanProduct?, ← width, ← height, span_eq, ← sameWidth, ← sameHeight, ofInt?_toInt,
    ofInt?_toInt]
  rfl

/-- Between addresses that can be referred to, only the product of width and height may be none. -/
theorem spanProduct?_of_referable (first : r.start.Referable) (last : r.stop.Referable) :
    r.spanProduct? = ofInt? r.span :=
  spanProduct?_of_near (not_farApart_of_referable first last)

theorem spanProduct?_of_farApart (far : r.FarApart) : r.spanProduct? = none := by
  by_cases widthFits : Fits r.width
  · have noHeight : ofInt? r.height = none :=
      ofInt?_eq_none_iff.2 fun heightFits => far ⟨widthFits, heightFits⟩
    obtain ⟨w, sameWidth⟩ := exists_toInt_eq widthFits
    rw [spanProduct?, ← width, ← height, ← sameWidth, ofInt?_toInt, noHeight]
    rfl
  · have noWidth : ofInt? r.width = none := ofInt?_eq_none_iff.2 widthFits
    rw [spanProduct?, ← width, noWidth]
    rfl

/-- Between corners too far apart, the spans that would fit are those of single columns and rows,
and those of `2 ^ 63` columns or rows with one step back the other way. -/
theorem fits_span_iff (far : r.FarApart) :
    Fits r.span ↔ r.Flat ∨ r.width = 2 ^ 63 ∧ r.height = -1 ∨ r.width = -1 ∧ r.height = 2 ^ 63 := by
  rw [flat_iff, span_eq]
  by_cases widthFits : Fits r.width
  · have heightUnfit : ¬ Fits r.height := fun heightFits => far ⟨widthFits, heightFits⟩
    rw [Int.mul_comm, fits_mul_iff heightUnfit]
    rw [fits_iff] at heightUnfit
    omega
  · rw [fits_mul_iff widthFits]
    rw [fits_iff] at widthFits
    omega

end Range

end CellFormula
