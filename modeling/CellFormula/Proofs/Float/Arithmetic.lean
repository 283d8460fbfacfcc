import CellFormula.Proofs.Float.Bits

/-!
# Special floats

Infinities, zeros, the float that is no number, negation and magnitudes, by the parts of floats.

Main statements: `abs_of_not_negative`, a finite float without a sign is its magnitude;
`zero_sub_neg`, zero minus the opposite of a negative float is the float again;
`eq_of_isNaN` and `eq_of_isInf`, the quotients that are written for floats without digits.
-/

namespace CellFormula

open Float.Model UnpackedFloat

theorem parts_neg (x : Float) : parts (-x) = (parts x).neg := by
  show parts (ofParts (parts x).neg) = (parts x).neg
  cases found : parts x with
  | infinity s => exact parts_ofParts_infinity (-s)
  | notANumber => rfl
  | zero s => exact parts_ofParts_zero (-s)
  | finite s m e pos => exact parts_ofParts_finite (of_parts_finite found).1

theorem isFinite_eq (x : Float) : x.isFinite = (parts x).isFinite := rfl

theorem isFinite_iff {x : Float} : x.isFinite = true ↔ x.isNaN = false ∧ x.isInf = false := by
  show (parts x).isFinite = true ↔ (parts x).isNaN = false ∧ (parts x).isInf = false
  cases parts x <;> simp [UnpackedFloat.isFinite, UnpackedFloat.isNaN, UnpackedFloat.isInf]

/-- A finite float is a zero, or a mantissa times a power of two. -/
theorem finite_cases {x : Float} (finite : x.isFinite = true) :
    (∃ s, parts x = .zero s) ∨ ∃ s m e pos, parts x = .finite s m e pos := by
  rw [isFinite_eq] at finite
  cases found : parts x with
  | infinity s => rw [found] at finite; cases finite
  | notANumber => rw [found] at finite; cases finite
  | zero s => exact Or.inl ⟨s, rfl⟩
  | finite s m e pos => exact Or.inr ⟨s, m, e, pos, rfl⟩

theorem isFinite_neg (x : Float) : (-x).isFinite = x.isFinite := by
  rw [isFinite_eq, isFinite_eq, parts_neg]
  cases parts x <;> rfl

theorem isNegative_neg {x : Float} (finite : x.isFinite = true) :
    isNegative (-x) = !isNegative x := by
  rw [isNegative_eq, isNegative_eq, parts_neg]
  rcases finite_cases finite with ⟨s, found⟩ | ⟨s, m, e, pos, found⟩
  · rw [found]
    cases s <;> rfl
  · rw [found]
    cases s <;> rfl

/-! ## Magnitudes -/

theorem abs_of_finite {x : Float} {s : Sign} {m : Nat} {e : Int} {pos : 0 < m}
    (found : parts x = .finite s m e pos) : x.abs = ofParts (.finite .positive m e pos) := by
  show ofParts (parts x).abs = _
  rw [found]
  rfl

theorem abs_of_zero {x : Float} {s : Sign} (found : parts x = .zero s) :
    x.abs = ofParts (.zero .positive) := by
  show ofParts (parts x).abs = _
  rw [found]
  rfl

theorem parts_abs_of_finite {x : Float} {s : Sign} {m : Nat} {e : Int} {pos : 0 < m}
    (found : parts x = .finite s m e pos) : parts x.abs = .finite .positive m e pos := by
  rw [abs_of_finite found]
  exact parts_ofParts_finite (of_parts_finite found).1

/-- A finite float that is not negative is its own magnitude. -/
theorem abs_of_not_negative {x : Float} (finite : x.isFinite = true)
    (positive : isNegative x = false) : x.abs = x := by
  rw [isNegative_eq] at positive
  conv => rhs; rw [← ofParts_parts x]
  rcases finite_cases finite with ⟨s, found⟩ | ⟨s, m, e, pos, found⟩
  · rw [found] at positive ⊢
    cases s with
    | negative => cases positive
    | positive => exact abs_of_zero found
  · rw [found] at positive ⊢
    cases s with
    | negative => cases positive
    | positive => exact abs_of_finite found

/-- Nothing but itself is equal to a positive finite float. -/
theorem eq_of_beq_finite {u : UnpackedFloat} {m : Nat} {e : Int} {pos : 0 < m}
    (same : u.beq (.finite .positive m e pos) = true) : u = .finite .positive m e pos := by
  change (u.compare (.finite .positive m e pos) == some .eq) = true at same
  rw [beq_iff_eq] at same
  cases u with
  | notANumber => cases same
  | infinity s => cases s <;> cases same
  | zero s => cases same
  | finite s n k other =>
    cases s with
    | negative => cases same
    | positive =>
      have order := Ordering.then_eq_eq.1 (Option.some.inj same)
      obtain rfl : k = e := Int.compare_eq_eq.1 order.1
      obtain rfl : n = m := Nat.compare_eq_eq.1 order.2
      rfl

/-! ## Floats without digits -/

/-- There is only one float that is no number. -/
theorem eq_of_isNaN {x : Float} (nan : x.isNaN = true) : x = 0.0 / 0.0 := by
  have found : parts x = .notANumber := by
    change (parts x).isNaN = true at nan
    cases found : parts x with
    | notANumber => rfl
    | infinity s | zero s | finite s m e pos => rw [found] at nan; cases nan
  rw [← ofParts_parts x, found]
  rfl

theorem eq_of_isInf {x : Float} (infinite : x.isInf = true) :
    x = if isNegative x then 0.0 - 1.0 / 0.0 else 1.0 / 0.0 := by
  have found : ∃ s, parts x = .infinity s := by
    change (parts x).isInf = true at infinite
    cases found : parts x with
    | infinity s => exact ⟨s, rfl⟩
    | notANumber | zero s | finite s m e pos => rw [found] at infinite; cases infinite
  obtain ⟨s, found⟩ := found
  rw [isNegative_eq, found]
  conv => lhs; rw [← ofParts_parts x, found]
  cases s <;> rfl

/-- Zero minus the opposite of a finite negative float is the float, unless that is zero. -/
theorem zero_sub_neg {x : Float} (finite : x.isFinite = true) (negative : isNegative x = true)
    (nonzero : x ≠ -0.0) : 0.0 - -x = x := by
  show ofParts (UnpackedFloat.sub .binary64 (.zero .positive) (parts (-x))) = x
  rw [parts_neg]
  rw [isNegative_eq] at negative
  rcases finite_cases finite with ⟨s, found⟩ | ⟨s, m, e, pos, found⟩
  · rw [found] at negative
    cases s with
    | negative =>
      refine absurd ?_ nonzero
      rw [← ofParts_parts x, found]
      rfl
    | positive => cases negative
  · conv => rhs; rw [← ofParts_parts x]
    rw [found]
    cases s <;> rfl

end CellFormula
