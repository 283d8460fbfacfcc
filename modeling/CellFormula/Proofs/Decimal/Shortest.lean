import CellFormula.Proofs.Decimal.Rounding

/-!
# The shortest decimals of floats

A finite float is written by a decimal that is rounded to it again. That decimal is either the exact
value of the float, or a neighbour of it that was accepted because it is rounded to the float.

Main statements: `Decimal.toFloat_exact`, a decimal equal to a float is rounded to it;
`Decimal.toFloat_shortest`, so is the shortest one; `Decimal.exponent_shortest_neg`, and it has a
fraction if the float has one.
-/

namespace CellFormula

open Float.Model UnpackedFloat

/-! ## Exact values -/

theorem exists_neg_of_le {e : ℤ} (negative : e ≤ 0) : ∃ k : Nat, e = -(k : ℤ) :=
  ⟨(-e).toNat, by omega⟩

/-- The exact value of a magnitude. -/
def Binary.value (b : Binary) : ℚ := b.mantissa * 2 ^ b.exponent

namespace Binary

variable {b : Binary}

/-- A whole magnitude is its whole part. -/
theorem value_floor (whole : b.isWhole = true) : (b.floor : ℚ) = b.value := by
  obtain ⟨m, e⟩ := b
  rw [isWhole, decide_eq_true_eq] at whole
  simp only [Nat.shiftLeft_eq, one_mul] at whole
  rw [floor, value, Nat.shiftLeft_eq, Nat.shiftRight_eq_div_pow]
  simp only
  rcases Int.le_total 0 e with nonneg | negative
  · obtain ⟨k, rfl⟩ := Int.eq_ofNat_of_zero_le nonneg
    have empty : (-(k : ℤ)).toNat = 0 := by omega
    rw [empty, pow_zero, Nat.div_one, Int.toNat_natCast, zpow_natCast]
    push_cast
    rfl
  · obtain ⟨k, rfl⟩ := exists_neg_of_le negative
    have empty : (-(k : ℤ)).toNat = 0 := by omega
    rw [neg_neg, Int.toNat_natCast] at whole ⊢
    obtain ⟨n, rfl⟩ : 2 ^ k ∣ m := Nat.dvd_of_mod_eq_zero whole
    rw [empty, pow_zero, mul_one, Nat.mul_div_cancel_left n (Nat.two_pow_pos _), zpow_neg,
      zpow_natCast]
    push_cast
    field_simp
theorem isWhole_of_nonneg {m : Nat} {e : ℤ} (nonneg : 0 ≤ e) :
    (⟨m, e⟩ : Binary).isWhole = true := by
  have empty : (-e).toNat = 0 := by omega
  rw [isWhole, empty, decide_eq_true_eq]
  exact Nat.mod_one m

theorem isWhole_scaled (n k : Nat) : (⟨n * 2 ^ k, 0 - (k : ℤ)⟩ : Binary).isWhole = true := by
  have places : (-(0 - (k : ℤ))).toNat = k := by omega
  rw [isWhole, places, decide_eq_true_eq, Nat.shiftLeft_eq, one_mul]
  exact Nat.mul_mod_left n (2 ^ k)

end Binary

namespace Decimal

variable {d : Decimal} {x : Float}

theorem value_trimZeros (d : Decimal) : d.trimZeros.value = d.value := by
  fun_induction trimZeros d with
  | case1 d more ih =>
    have digits : d.digits = 10 * (d.digits / 10) := by omega
    rw [ih, value, value, zpow_add₀ (by norm_num), zpow_one]
    conv => rhs; rw [digits]
    push_cast
    ring
  | case2 d done => rfl

theorem value_ofBinary (b : Binary) : (ofBinary b).value = b.value := by
  obtain ⟨m, e⟩ := b
  rw [ofBinary, value, Binary.value]
  simp only [Nat.shiftLeft_eq, Nat.pow_eq]
  rcases Int.le_total 0 e with nonneg | negative
  · obtain ⟨k, rfl⟩ := Int.eq_ofNat_of_zero_le nonneg
    have empty : (-(k : ℤ)).toNat = 0 := by omega
    rw [empty, min_eq_right nonneg, zpow_zero, pow_zero, mul_one, mul_one, Int.toNat_natCast,
      zpow_natCast]
    push_cast
    rfl
  · obtain ⟨k, rfl⟩ := exists_neg_of_le negative
    have empty : (-(k : ℤ)).toNat = 0 := by omega
    have ten : (10 : ℚ) ^ k = 2 ^ k * 5 ^ k := by
      rw [← mul_pow]
      norm_num
    rw [empty, min_eq_left negative, pow_zero, mul_one, neg_neg, Int.toNat_natCast, zpow_neg,
      zpow_neg, zpow_natCast, zpow_natCast, ten]
    push_cast
    field_simp

/-! ## Decimals of floats -/

theorem toFloat_of_zero (zero : d.digits = 0) : d.toFloat = ofParts (.zero .positive) := by
  rw [toFloat, if_pos (Or.inl zero)]
  rfl

theorem ten_zpow_le_two_zpow : (10 : ℚ) ^ (-324 : ℤ) ≤ 2 ^ (-1074 : ℤ) := by
  have powers : 2 ^ 1074 ≤ 10 ^ 324 := by decide +kernel
  have cast : (2 : ℚ) ^ 1074 ≤ 10 ^ 324 := by exact_mod_cast powers
  rw [zpow_neg, zpow_neg, zpow_ofNat, zpow_ofNat]
  exact inv_anti₀ (by positivity) cast

theorem two_zpow_lt_ten_zpow : (2 : ℚ) ^ 53 * 2 ^ (971 : ℤ) < 10 ^ (309 : ℤ) := by
  have powers : 2 ^ 53 * 2 ^ 971 < 10 ^ 309 := by decide +kernel
  rw [zpow_ofNat, zpow_ofNat]
  exact_mod_cast powers

/-- A decimal equal to a finite float is rounded to the float. -/
theorem toFloat_exact (finite : x.isFinite = true) (same : d.value = (Binary.ofFloat x).value) :
    d.toFloat = x.abs := by
  rcases finite_cases finite with ⟨s, found⟩ | ⟨s, m, e, pos, found⟩
  · have zero : d.value = 0 := by
      rw [same, ofFloat_of_zero found, Binary.value, Nat.cast_zero, zero_mul]
    rw [toFloat_of_zero (value_eq_zero_iff.1 zero), abs_of_zero found]
  · obtain ⟨legal, binary⟩ := of_parts_finite found
    rw [binary, Binary.value] at same
    have mantissa : (1 : ℚ) ≤ m := by exact_mod_cast pos
    have power := two_zpow_pos e
    have positive : 0 < d.value := by
      rw [same]
      exact mul_pos (by linarith) power
    have nonzero : d.digits ≠ 0 := fun zero => positive.ne' (value_eq_zero_iff.2 zero)
    -- floats lie well within the orders for which a decimal is rounded
    have low : (10 : ℚ) ^ (-324 : ℤ) ≤ d.value := by
      have least : (2 : ℚ) ^ (-1074 : ℤ) ≤ 2 ^ e := zpow_le_zpow_right₀ (by norm_num) legal.least
      calc (10 : ℚ) ^ (-324 : ℤ) ≤ 2 ^ (-1074 : ℤ) := ten_zpow_le_two_zpow
        _ ≤ 2 ^ e := least
        _ ≤ m * 2 ^ e := le_mul_of_one_le_left power.le mantissa
        _ = d.value := same.symm
    have high : d.value < (10 : ℚ) ^ (309 : ℤ) := by
      have short : (m : ℚ) < 2 ^ 53 := by exact_mod_cast legal.short
      have most : (2 : ℚ) ^ e ≤ 2 ^ (971 : ℤ) := zpow_le_zpow_right₀ (by norm_num) legal.most
      calc d.value = m * 2 ^ e := same
        _ < 2 ^ 53 * 2 ^ e := mul_lt_mul_of_pos_right short power
        _ ≤ 2 ^ 53 * 2 ^ (971 : ℤ) := mul_le_mul_of_nonneg_left most (by norm_num)
        _ < 10 ^ (309 : ℤ) := two_zpow_lt_ten_zpow
    have above := (le_log_ten_iff positive).2 low
    have below := (log_ten_lt_iff positive).2 high
    rw [toFloat_of_nonzero nonzero, if_neg (by omega), if_neg (by omega), same,
      nearest_of_legal legal, abs_of_finite found]

/-- What is left after digits were cut off was accepted, if any were cut off. -/
theorem shorten_cases (accept : Decimal → Bool) (d : Decimal) (drop : Nat) :
    d.shorten accept drop = d ∨ accept (d.shorten accept drop) = true := by
  induction drop with
  | zero => exact Or.inl rfl
  | succ drop ih =>
    rw [shorten]
    cases found : d.rounded? accept (drop + 1) with
    | none => exact ih
    | some cut =>
      refine Or.inr ?_
      show accept cut = true
      unfold rounded? at found
      split at found
      · split at found <;> cases found <;> assumption
      · cases found
        assumption
      · cases found
        assumption
      · cases found

/-- The shortest decimal of a finite float is rounded to the float. -/
theorem toFloat_shortest (finite : x.isFinite = true) : (shortest x).toFloat = x.abs := by
  have exact : (ofBinary (Binary.ofFloat x)).toFloat = x.abs :=
    toFloat_exact finite (value_ofBinary _)
  rw [shortest, toFloat_of_value (value_trimZeros _)]
  rcases finite_cases finite with ⟨s, found⟩ | ⟨s, m, e, pos, found⟩
  · -- a zero has one digit, so none can be cut off
    have one : (ofBinary (Binary.ofFloat x)).length - 1 = 0 := by
      rw [ofFloat_of_zero found]
      decide +kernel
    rw [one]
    exact exact
  · rcases shorten_cases (fun d => d.toFloat == x.abs) (ofBinary (Binary.ofFloat x))
      ((ofBinary (Binary.ofFloat x)).length - 1) with whole | accepted
    · rw [whole]
      exact exact
    · change (parts _).beq (parts x.abs) = true at accepted
      have magnitude := parts_abs_of_finite found
      rw [magnitude] at accepted
      exact eq_of_parts_eq ((eq_of_beq_finite accepted).trans magnitude.symm)

/-! ## Fractions -/

/-- A decimal that is rounded to a positive finite float is rounded as its value is. -/
theorem nearest_of_parts {m : Nat} {e : ℤ} {pos : 0 < m}
    (found : parts d.toFloat = .finite .positive m e pos) :
    0 < d.value ∧ parts (ofParts (nearest .positive d.value)) = .finite .positive m e pos := by
  by_cases zero : d.digits = 0
  · rw [toFloat_of_zero zero] at found
    cases found
  · rw [toFloat_of_nonzero zero] at found
    split at found
    · cases found
    · split at found
      · cases found
      · exact ⟨value_pos zero, found⟩

/-- A natural number is rounded to a whole float. -/
theorem isWhole_of_nearest {n m : Nat} {e : ℤ} {pos : 0 < m} (positive : 0 < n)
    (found : parts (ofParts (nearest .positive n)) = .finite .positive m e pos) :
    (⟨m, e⟩ : Binary).isWhole = true := by
  have value : (0 : ℚ) < n := by exact_mod_cast positive
  rcases lt_or_ge (target n) 0 with below | above
  · -- below the numbers with 53 digits, the number is a float itself
    have log : Int.log 2 (n : ℚ) < 52 := by
      rw [target] at below
      omega
    have small : n < 2 ^ 52 := by exact_mod_cast (log_lt_iff value).1 log
    have legal := legal_scaled (e := 0) positive (by omega) (by omega) (by omega)
    have scaled := nearest_of_legal legal .positive
    rw [value_scaled, zpow_zero, mul_one] at scaled
    rw [scaled, parts_ofParts_finite legal] at found
    cases found
    exact Binary.isWhole_scaled n (52 - n.log2)
  · -- from there on, floats have no digits after the point
    obtain ⟨em, -, ⟨zero, -⟩ | ⟨m', e', pos', rounded, short, reached, full, -⟩⟩ :=
      nearest_cases value .positive
    · rw [zero] at found
      cases found
    · rw [rounded] at found
      by_cases overflow : 971 < e'
      · rw [ofParts_finite_overflow overflow] at found
        cases found
      · have legal : Legal m' e' := ⟨pos', short, by omega, by omega, full⟩
        rw [parts_ofParts_finite legal] at found
        cases found
        exact Binary.isWhole_of_nonneg (by omega)

/-- The shortest decimal of a float with a fraction has digits after the point. -/
theorem exponent_shortest_neg (finite : x.isFinite = true)
    (fraction : (Binary.ofFloat x).isWhole = false) : (shortest x).exponent < 0 := by
  rcases finite_cases finite with ⟨s, found⟩ | ⟨s, m, e, pos, found⟩
  · rw [ofFloat_of_zero found] at fraction
    cases fraction
  · have binary := (of_parts_finite found).2
    refine Int.not_le.1 ?_
    intro nonneg
    have magnitude : parts (shortest x).toFloat = .finite .positive m e pos := by
      rw [toFloat_shortest finite]
      exact parts_abs_of_finite found
    obtain ⟨positive, rounded⟩ := nearest_of_parts magnitude
    obtain ⟨k, exponent⟩ := Int.eq_ofNat_of_zero_le nonneg
    have natural : (shortest x).value = ((shortest x).digits * 10 ^ k : Nat) := by
      rw [value, exponent, zpow_natCast]
      push_cast
      rfl
    rw [natural] at positive rounded
    have whole := isWhole_of_nearest (by exact_mod_cast positive) rounded
    rw [binary, whole] at fraction
    cases fraction

end Decimal

end CellFormula
