import CellFormula.Operator.Apply
import CellFormula.Proofs.Integer
import Mathlib.Data.Int.Bitwise
import Mathlib.Data.Rat.Floor
import Mathlib.Tactic.Linarith

/-!
# Exact operations on integers

Each operation on integers stands for a function of numbers without bounds. `IsExact` says that an
operation returns the number of that function wherever it fits, and overflows wherever it does not.

Main statements: `isExact_floorDiv`, the quotient is that of the fractions, rounded down;
`isExact_power`, a power is exact however great the exponent; `isExact_shiftLeft` and
`isExact_shiftRight`, a shift by any amount multiplies by a power of two and rounds down;
`testBit_and`, `testBit_or` and `testBit_xor`, bits are combined place by place.
-/

namespace CellFormula

/-! ## Results that must fit -/

section

variable {left right i : Integer} {op : BinaryOp} {n : Int}

theorem fit_of_toInt (same : i.toInt = n) : fit left op right n = .ok i := by
  rw [fit, Integer.ofInt?_eq_some_iff.2 same]

theorem fit_of_not_fits (unfit : ¬ Integer.Fits n) :
    fit left op right n = .error (.overflow (.operands left op right)) := by
  rw [fit, Integer.ofInt?_eq_none_iff.2 unfit]

/-- The result is the integer equal to `n`, or an overflow if there is none. -/
def IsExact (result : Except FormulaError Integer) (n : Int) : Prop :=
  (∀ i : Integer, i.toInt = n → result = .ok i) ∧
    (¬ Integer.Fits n → ∃ cause, result = .error (.overflow cause))

theorem isExact_fit : IsExact (fit left op right n) n :=
  ⟨fun _ same => fit_of_toInt same, fun unfit => ⟨_, fit_of_not_fits unfit⟩⟩

theorem isExact_overflow {cause : OverflowError} (unfit : ¬ Integer.Fits n) :
    IsExact (.error (.overflow cause)) n :=
  ⟨fun i same => absurd (same ▸ Integer.fits_toInt i) unfit, fun _ => ⟨cause, rfl⟩⟩

end

namespace Integer

theorem fits_iff {n : Int} : Fits n ↔ -2 ^ 63 ≤ n ∧ n < 2 ^ 63 := by
  have most : Int64.maxValue.toInt = 2 ^ 63 - 1 := rfl
  have least : Int64.minValue.toInt = -2 ^ 63 := rfl
  rw [Fits, most, least]
  omega

/-! ## Quotients and remainders -/

theorem fdiv_eq_floor (l r : Int) : l.fdiv r = ⌊(l : ℚ) / r⌋ := by
  rcases Int.le_total 0 r with nonneg | nonpos
  · obtain ⟨d, rfl⟩ := Int.eq_ofNat_of_zero_le nonneg
    rw [Int.fdiv_eq_ediv_of_nonneg _ nonneg, Int.cast_natCast, Rat.floor_intCast_div_natCast]
  · obtain ⟨d, magnitude⟩ := Int.eq_ofNat_of_zero_le (Int.neg_nonneg_of_nonpos nonpos)
    obtain rfl : r = -(d : Int) := by omega
    have signs : (l : ℚ) / ((-(d : Int) : Int) : ℚ) = ((-l : Int) : ℚ) / (d : ℚ) := by
      push_cast
      rw [div_neg, neg_div]
    rw [← Int.neg_fdiv_neg, neg_neg, Int.fdiv_eq_ediv_of_nonneg _ (Int.natCast_nonneg d), signs,
      Rat.floor_intCast_div_natCast]

theorem fmod_eq_floor (l r : Int) : l.fmod r = l - r * ⌊(l : ℚ) / r⌋ := by
  rw [Int.fmod_def, fdiv_eq_floor]

/-- A remainder is nearer to zero than the divisor, and on the same side. -/
theorem fmod_bounds (l r : Int) :
    (0 < r → 0 ≤ l.fmod r ∧ l.fmod r < r) ∧ (r < 0 → r < l.fmod r ∧ l.fmod r ≤ 0) := by
  refine ⟨fun positive => ⟨Int.fmod_nonneg_of_pos _ positive, Int.fmod_lt_of_pos _ positive⟩, ?_⟩
  intro negative
  have positive : 0 < -r := by omega
  have low := Int.fmod_nonneg_of_pos (-l) positive
  have high := Int.fmod_lt_of_pos (-l) positive
  rw [Int.neg_fmod_neg] at low high
  omega

theorem fits_fmod {l r : Integer} (nonzero : r.toInt ≠ 0) : Fits (l.toInt.fmod r.toInt) := by
  obtain ⟨positive, negative⟩ := fmod_bounds l.toInt r.toInt
  have := fits_iff.1 (fits_toInt r)
  rw [fits_iff]
  omega

/-! ## Powers -/

/-- Powers of -1, 0 and 1 depend only on whether the exponent is zero, odd or even. -/
theorem pow_of_small {b : Int} (small : b.natAbs ≤ 1) (n : Nat) :
    b ^ (if n = 0 then 0 else 2 - n % 2) = b ^ n := by
  by_cases zero : n = 0
  · rw [if_pos zero, zero]
  · rw [if_neg zero]
    obtain rfl | rfl | rfl : b = 0 ∨ b = 1 ∨ b = -1 := by omega
    · rw [zero_pow zero, zero_pow (by omega)]
    · rw [one_pow, one_pow]
    · rcases Nat.mod_two_eq_zero_or_one n with even | odd
      · rw [even, Even.neg_one_pow (Nat.even_iff.2 even), Nat.sub_zero, neg_one_sq]
      · rw [odd, Odd.neg_one_pow (Nat.odd_iff.2 odd), pow_one]

/-- A number that is not zero is too great after 64 doublings. -/
theorem not_fits_mul_two_pow {n : Int} {k : Nat} (nonzero : n ≠ 0) (many : 64 ≤ k) :
    ¬ Fits (n * 2 ^ k) := by
  have power : (2 : Int) ^ 64 ≤ 2 ^ k := pow_le_pow_right₀ (by decide) many
  rw [fits_iff]
  rintro ⟨low, high⟩
  rcases Int.lt_or_gt_of_ne nonzero with negative | positive <;> nlinarith

/-- The sixty-fourth power of a number other than -1, 0 and 1 is too great, and so are those
above. -/
theorem not_fits_pow {b : Int} {n : Nat} (large : 1 < b.natAbs) (many : 64 ≤ n) :
    ¬ Fits (b ^ n) := by
  have magnitude : 2 ^ 64 ≤ (b ^ n).natAbs := by
    rw [Int.natAbs_pow]
    calc 2 ^ 64 ≤ 2 ^ n := Nat.pow_le_pow_right (by decide) many
      _ ≤ b.natAbs ^ n := Nat.pow_le_pow_left large n
  rw [fits_iff]
  omega

/-! ## Products with powers of two -/

theorem floor_mul_two_zpow (n : Int) (k : Nat) : ⌊(n : ℚ) * 2 ^ (k : Int)⌋ = n * 2 ^ k := by
  have whole : (n : ℚ) * 2 ^ (k : Int) = ((n * 2 ^ k : Int) : ℚ) := by
    rw [zpow_natCast]
    push_cast
    rfl
  rw [whole, Int.floor_intCast]

theorem floor_mul_two_zpow_neg (n : Int) (k : Nat) : ⌊(n : ℚ) * 2 ^ (-(k : Int))⌋ = n / 2 ^ k := by
  have quotient : (n : ℚ) * 2 ^ (-(k : Int)) = (n : ℚ) / ((2 ^ k : Nat) : ℚ) := by
    rw [zpow_neg, zpow_natCast, div_eq_mul_inv]
    push_cast
    rfl
  rw [quotient, Rat.floor_intCast_div_natCast]
  push_cast
  rfl

/-- After 63 halvings of an integer only its sign is left. -/
theorem div_two_pow_of_le (n : Integer) {k : Nat} (many : 63 ≤ k) :
    n.toInt / 2 ^ k = if n.toInt < 0 then -1 else 0 := by
  obtain ⟨low, high⟩ := fits_iff.1 (fits_toInt n)
  have power : (2 : Int) ^ 63 ≤ 2 ^ k := pow_le_pow_right₀ (by decide) many
  split
  · next negative => exact Int.ediv_eq_neg_one_of_neg_of_le negative (by omega)
  · next nonneg => exact Int.ediv_eq_zero_of_lt (Int.not_lt.1 nonneg) (by omega)

theorem div_two_pow_min (n : Integer) (k : Nat) : n.toInt / 2 ^ min 63 k = n.toInt / 2 ^ k := by
  rcases Nat.le_total k 63 with few | many
  · rw [Nat.min_eq_right few]
  · rw [Nat.min_eq_left many, div_two_pow_of_le n (Nat.le_refl 63), div_two_pow_of_le n many]

/-! ## Bits -/

/-- The places of an integer in two's complement are those of its word, and beyond them its sign. -/
theorem testBit_toInt (i : Integer) (k : Nat) :
    i.toInt.testBit k = if k < 64 then i.toBitVec.getLsbD k else i.toBitVec.msb := by
  rw [← Int64.toInt_toBitVec]
  cases sign : i.toBitVec.msb with
  | false =>
    rw [BitVec.toInt_eq_toNat_of_msb sign]
    change i.toBitVec.getLsbD k = _
    split
    · rfl
    · next beyond => exact BitVec.getLsbD_of_ge _ _ (Nat.not_lt.1 beyond)
  | true =>
    have negated : i.toBitVec.toInt = Int.negSucc (~~~i.toBitVec).toNat := by
      have := i.toBitVec.isLt
      rw [BitVec.toInt_eq_msb_cond, if_pos sign, BitVec.toNat_not]
      omega
    rw [negated]
    change (!(~~~i.toBitVec).getLsbD k) = _
    rw [BitVec.getLsbD_not]
    split
    · next inside => simp [inside]
    · next beyond => simp [beyond]

theorem testBit_and (i j : Integer) (k : Nat) :
    (i &&& j).toInt.testBit k = (i.toInt.testBit k && j.toInt.testBit k) := by
  simp only [testBit_toInt, Int64.toBitVec_and, BitVec.getLsbD_and, BitVec.msb_and]
  split <;> rfl

theorem testBit_or (i j : Integer) (k : Nat) :
    (i ||| j).toInt.testBit k = (i.toInt.testBit k || j.toInt.testBit k) := by
  simp only [testBit_toInt, Int64.toBitVec_or, BitVec.getLsbD_or, BitVec.msb_or]
  split <;> rfl

theorem testBit_xor (i j : Integer) (k : Nat) :
    (i ^^^ j).toInt.testBit k = (i.toInt.testBit k ^^ j.toInt.testBit k) := by
  simp only [testBit_toInt, Int64.toBitVec_xor, BitVec.getLsbD_xor, BitVec.msb_xor]
  split <;> rfl

end Integer

/-! ## Operations -/

section

variable {l r : Integer}

open Integer

theorem isExact_floorDiv (nonzero : r.toInt ≠ 0) :
    IsExact (floorDiv l r) ⌊(l.toInt : ℚ) / r.toInt⌋ := by
  rw [floorDiv, if_neg nonzero, fdiv_eq_floor]
  exact isExact_fit

/-- A remainder never overflows. -/
theorem exists_floorMod (nonzero : r.toInt ≠ 0) : ∃ rest, floorMod l r = .ok rest ∧
    rest.toInt = l.toInt - r.toInt * ⌊(l.toInt : ℚ) / r.toInt⌋ := by
  obtain ⟨rest, same⟩ := exists_toInt_eq (fits_fmod (l := l) nonzero)
  refine ⟨rest, ?_, same.trans (fmod_eq_floor _ _)⟩
  rw [floorMod, if_neg nonzero]
  exact fit_of_toInt same

theorem isExact_power (nonneg : 0 ≤ r.toInt) :
    IsExact (power l r) (l.toInt ^ r.toInt.toNat) := by
  simp only [power, if_neg (Int.not_lt.2 nonneg), Int.pow_eq]
  split
  · next small =>
    rw [pow_of_small small]
    exact isExact_fit
  · next large =>
    split
    · next many => exact isExact_overflow (not_fits_pow (Nat.not_le.1 large) many)
    · exact isExact_fit

/-- Shifts to the left by amounts from 64 on are alike. -/
theorem isExact_shiftUp {k : Nat} (nonneg : 0 ≤ r.toInt) (alike : min 64 r.toInt.toNat = min 64 k) :
    IsExact (shiftUp l r) (l.toInt * 2 ^ k) := by
  rw [shiftUp]
  split
  · next zero =>
    rw [zero, Int.zero_mul]
    exact ⟨fun i same => congrArg _ (Int64.toInt_inj.1 same.symm),
      fun unfit => absurd (fits_toInt 0) unfit⟩
  · next nonzero =>
    split
    · exact isExact_overflow (not_fits_mul_two_pow nonzero (by omega))
    · obtain rfl : r.toInt.toNat = k := by omega
      rw [Int.shiftLeft_eq]
      exact isExact_fit

/-- Shifts to the right by amounts from 63 on are alike. -/
theorem isExact_shiftDown {k : Nat} (alike : min 63 r.toInt.toNat = min 63 k) :
    IsExact (shiftDown l r) (l.toInt / 2 ^ k) := by
  rw [shiftDown, alike, Int.shiftRight_eq_div_pow, ← div_two_pow_min]
  push_cast
  exact isExact_fit

/-- Only the least integer has no opposite; the greatest one stands for it, which is as far. -/
theorem toInt_reversed (negative : r.toInt < 0) :
    (reversed r).toInt = min (-r.toInt) (2 ^ 63 - 1) := by
  have low := (fits_iff.1 (fits_toInt r)).1
  rw [reversed]
  cases found : ofInt? (-r.toInt) with
  | some i =>
    have opposite := ofInt?_eq_some_iff.1 found
    have high := (fits_iff.1 (fits_toInt i)).2
    rw [Option.getD_some]
    omega
  | none =>
    have unfit := ofInt?_eq_none_iff.1 found
    have most : Int64.maxValue.toInt = 2 ^ 63 - 1 := rfl
    rw [fits_iff] at unfit
    rw [Option.getD_none, most]
    omega

theorem isExact_shiftLeft : IsExact (shiftLeft l r) ⌊(l.toInt : ℚ) * 2 ^ r.toInt⌋ := by
  rw [shiftLeft]
  split
  · next negative =>
    have turned := toInt_reversed negative
    obtain ⟨k, opposite⟩ := Int.eq_ofNat_of_zero_le (Int.neg_nonneg_of_nonpos negative.le)
    obtain same : r.toInt = -(k : Int) := by omega
    rw [same, floor_mul_two_zpow_neg]
    exact isExact_shiftDown (by omega)
  · next nonneg =>
    obtain ⟨k, same⟩ := Int.eq_ofNat_of_zero_le (Int.not_lt.1 nonneg)
    rw [same, floor_mul_two_zpow]
    exact isExact_shiftUp (Int.not_lt.1 nonneg) (by omega)

theorem isExact_shiftRight : IsExact (shiftRight l r) ⌊(l.toInt : ℚ) * 2 ^ (-r.toInt)⌋ := by
  rw [shiftRight]
  split
  · next negative =>
    have turned := toInt_reversed negative
    obtain ⟨k, opposite⟩ := Int.eq_ofNat_of_zero_le (Int.neg_nonneg_of_nonpos negative.le)
    rw [opposite, floor_mul_two_zpow]
    exact isExact_shiftUp (by omega) (by omega)
  · next nonneg =>
    obtain ⟨k, same⟩ := Int.eq_ofNat_of_zero_le (Int.not_lt.1 nonneg)
    rw [same, floor_mul_two_zpow_neg]
    exact isExact_shiftDown (by omega)

end

end CellFormula
