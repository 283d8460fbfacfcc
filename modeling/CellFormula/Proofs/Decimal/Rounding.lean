import CellFormula.Decimal.Basic
import CellFormula.Proofs.Float.Arithmetic
import CellFormula.Proofs.Float.Rounding

/-!
# Rounding decimals

Main statements: `Decimal.toFloat_of_nonzero`, the float of a decimal is the one next to its value;
`Decimal.toFloat_of_value`, so the decimals of one value have one float.
-/

namespace CellFormula

open Float.Model UnpackedFloat

/-! ## Small numbers and powers of ten as floats -/

theorem scaled_pos {n : Nat} (pos : 0 < n) : 0 < n * 2 ^ (52 - n.log2) :=
  Nat.mul_pos pos (Nat.two_pow_pos _)

theorem scaled_bounds {n : Nat} (pos : 0 < n) (short : n < 2 ^ 53) :
    2 ^ 52 ≤ n * 2 ^ (52 - n.log2) ∧ n * 2 ^ (52 - n.log2) < 2 ^ 53 := by
  have log := log2_le_of_short short
  have low : 2 ^ n.log2 ≤ n := Nat.log2_self_le (by omega)
  have high : n < 2 ^ (n.log2 + 1) := Nat.lt_log2_self
  have least : 2 ^ 52 = 2 ^ n.log2 * 2 ^ (52 - n.log2) := by
    rw [← Nat.pow_add]
    congr 1
    omega
  have most : 2 ^ 53 = 2 ^ (n.log2 + 1) * 2 ^ (52 - n.log2) := by
    rw [← Nat.pow_add]
    congr 1
    omega
  refine ⟨?_, ?_⟩
  · rw [least]
    exact Nat.mul_le_mul_right _ low
  · rw [most]
    exact Nat.mul_lt_mul_of_pos_right high (Nat.two_pow_pos _)

theorem legal_scaled {n : Nat} {e : ℤ} (pos : 0 < n) (short : n < 2 ^ 53) (low : -900 ≤ e)
    (high : e ≤ 900) : Legal (n * 2 ^ (52 - n.log2)) (e - (52 - n.log2 : Nat)) := by
  obtain ⟨least, most⟩ := scaled_bounds pos short
  exact ⟨scaled_pos pos, most, by omega, by omega, fun _ => least⟩

theorem value_scaled (n : Nat) (e : ℤ) :
    ((n * 2 ^ (52 - n.log2) : Nat) * 2 ^ (e - (52 - n.log2 : Nat)) : ℚ) = n * 2 ^ e := by
  have power : (2 : ℚ) ^ (52 - n.log2) ≠ 0 := by positivity
  rw [Nat.cast_mul, Nat.cast_pow, Nat.cast_ofNat, zpow_sub₀ (by norm_num), zpow_natCast]
  field_simp

/-- The table of powers of ten holds floats of exactly these values. -/
theorem powerOfTen_eq : ∀ e : Fin Float.exactlyRepresentablePowersOfTen.size,
    Float.exactlyRepresentablePowersOfTen[e] =
      ofParts (.finite .positive (5 ^ e.val * 2 ^ (52 - (5 ^ e.val).log2))
        (e.val - (52 - (5 ^ e.val).log2 : Nat)) (scaled_pos (Nat.pow_pos (by decide)))) := by
  decide +kernel

theorem parts_powerOfTen (e : Fin Float.exactlyRepresentablePowersOfTen.size) :
    ∃ m k pos, parts Float.exactlyRepresentablePowersOfTen[e] = .finite .positive m k pos ∧
      2 ^ 52 ≤ m ∧ (m * 2 ^ k : ℚ) = 10 ^ e.val := by
  have small : e.val < 23 := e.isLt
  have pos : 0 < 5 ^ e.val := Nat.pow_pos (by decide)
  have short : 5 ^ e.val < 2 ^ 53 :=
    Nat.lt_of_le_of_lt (Nat.pow_le_pow_right (by decide) (Nat.le_of_lt_succ small)) (by decide)
  refine ⟨5 ^ e.val * 2 ^ (52 - (5 ^ e.val).log2), e.val - (52 - (5 ^ e.val).log2 : Nat),
    scaled_pos pos, ?_, (scaled_bounds pos short).1, ?_⟩
  · rw [powerOfTen_eq]
    exact parts_ofParts_finite (legal_scaled pos short (by omega) (by omega))
  · rw [value_scaled, Nat.cast_pow, zpow_natCast, Nat.cast_ofNat, ← mul_pow]
    norm_num

theorem parts_ofNat {n : Nat} (pos : 0 < n) (short : n < 2 ^ 53) :
    ∃ m k pos, parts n.toUInt64.toFloat = .finite .positive m k pos ∧
      2 ^ 52 ≤ m ∧ (m * 2 ^ k : ℚ) = n := by
  have log := log2_le_of_short short
  have least := (scaled_bounds pos short).1
  have same : n.toUInt64.toNat = n := Nat.mod_eq_of_lt (by omega)
  have places :
      ((0 : ℤ) - Format.binary64.targetExponent (totalExponent n 0)).toNat = 52 - n.log2 := by
    rw [targetExponent_eq, totalExponent]
    omega
  have rounded : n.toUInt64.toFloat =
      ofParts (.finite .positive (n * 2 ^ (52 - n.log2)) (0 - (52 - n.log2 : Nat))
        (scaled_pos pos)) := by
    show ofParts (UnpackedFloat.normalize .binary64 (n.toUInt64.toNat : ℤ) 0 .positive) = _
    have legal := legal_scaled pos short (e := 0) (by omega) (by omega)
    have greater : compare (n : ℤ) 0 = .gt := Int.compare_eq_gt.2 (by exact_mod_cast pos)
    rw [same, UnpackedFloat.normalize]
    simp only [greater, Int.toNat_natCast, UnpackedFloat.round, decreaseExponent, places,
      Nat.shiftLeft_eq]
    rw [legal.round_eq]
  refine ⟨n * 2 ^ (52 - n.log2), 0 - (52 - n.log2 : Nat), scaled_pos pos, ?_, least, ?_⟩
  · rw [rounded]
    exact parts_ofParts_finite (legal_scaled pos short (by omega) (by omega))
  · rw [value_scaled, zpow_zero, mul_one]

/-! ## Scientific notation -/

theorem zpow_of_neg {e : ℤ} (negative : e < 0) : (10 : ℚ) ^ e = (10 ^ e.natAbs)⁻¹ := by
  have opposite : e = -(e.natAbs : ℤ) := by omega
  conv => lhs; rw [opposite, zpow_neg, zpow_natCast]

theorem zpow_of_nonneg {e : ℤ} (nonneg : 0 ≤ e) : (10 : ℚ) ^ e = 10 ^ e.natAbs := by
  have same : e = (e.natAbs : ℤ) := by omega
  conv => lhs; rw [same, zpow_natCast]

/-- A product of two full mantissas has digits below those of the result. -/
theorem le_target_mul {m n : Nat} {e k : ℤ} (left : 2 ^ 52 ≤ m) (right : 2 ^ 52 ≤ n) :
    e + k ≤ target (m * 2 ^ e * (n * 2 ^ k)) := by
  have first : (2 : ℚ) ^ 52 * 2 ^ e ≤ m * 2 ^ e :=
    mul_le_mul_of_nonneg_right (by exact_mod_cast left) (two_zpow_pos e).le
  have second : (2 : ℚ) ^ 52 * 2 ^ k ≤ n * 2 ^ k :=
    mul_le_mul_of_nonneg_right (by exact_mod_cast right) (two_zpow_pos k).le
  have power : (2 : ℚ) ^ (e + k + 104) = 2 ^ 52 * 2 ^ e * (2 ^ 52 * 2 ^ k) := by
    rw [zpow_add₀ (by norm_num), zpow_add₀ (by norm_num)]
    norm_num
    ring
  have positive : (0 : ℚ) < 2 ^ 52 * 2 ^ e * (2 ^ 52 * 2 ^ k) := by
    rw [← power]
    exact two_zpow_pos _
  have least : (2 : ℚ) ^ (e + k + 104) ≤ m * 2 ^ e * (n * 2 ^ k) := by
    rw [power]
    exact mul_le_mul first second (by positivity) (by positivity)
  have log := (le_log_iff ((two_zpow_pos _).trans_le least)).2 least
  rw [target]
  omega

/-- A quotient or a product of two numbers that are floats is rounded once. -/
theorem ofScientific_small {m : Nat} {e : ℤ} (pos : 0 < m) (short : m < 2 ^ 53)
    (small : e.natAbs < Float.exactlyRepresentablePowersOfTen.size) :
    (if e < 0 then m.toUInt64.toFloat / Float.exactlyRepresentablePowersOfTen[e.natAbs]
      else m.toUInt64.toFloat * Float.exactlyRepresentablePowersOfTen[e.natAbs]) =
    ofParts (nearest .positive (m * 10 ^ e)) := by
  obtain ⟨a, j, left, number, many, value⟩ := parts_ofNat pos short
  obtain ⟨b, k, right, power, full, factor⟩ := parts_powerOfTen ⟨e.natAbs, small⟩
  split
  · next negative =>
    show ofParts (UnpackedFloat.div .binary64 (parts m.toUInt64.toFloat)
      (parts Float.exactlyRepresentablePowersOfTen[(⟨e.natAbs, small⟩ : Fin _)])) = _
    rw [number, power, div_eq_nearest, value, factor, zpow_of_neg negative, div_eq_mul_inv]
    rfl
  · next nonneg =>
    show ofParts (UnpackedFloat.mul .binary64 (parts m.toUInt64.toFloat)
      (parts Float.exactlyRepresentablePowersOfTen[(⟨e.natAbs, small⟩ : Fin _)])) = _
    rw [number, power, mul_eq_nearest left right (le_target_mul many full), value, factor,
      zpow_of_nonneg (by omega)]
    rfl

theorem ofScientific_large {m : Nat} {e : ℤ} (pos : 0 < m) (low : -(2048 + m.log2 : ℤ) ≤ e)
    (high : e ≤ 2048) :
    UnpackedFloat.ofScientific .binary64 m e = nearest .positive (m * 10 ^ e) := by
  rw [UnpackedFloat.ofScientific, dif_neg (by omega), if_neg, if_neg]
  · split
    · next nonneg =>
      have value : ((m <<< Format.binary64.mantissaBits : Nat) *
          2 ^ (-(Format.binary64.mantissaBits : ℤ)) * ((10 ^ e.toNat : Nat) * 2 ^ (0 : ℤ)) : ℚ) =
          m * 10 ^ e := by
        have same : e.toNat = e.natAbs := by omega
        rw [Nat.shiftLeft_eq, zpow_neg, zpow_natCast, zpow_of_nonneg nonneg, same]
        push_cast
        field_simp
      have whole : (2 : ℚ) ^ (0 : ℤ) ≤ m * 10 ^ e := by
        have number : (1 : ℚ) ≤ m := by exact_mod_cast pos
        have power : (1 : ℚ) ≤ 10 ^ e := one_le_zpow₀ (by norm_num) nonneg
        rw [zpow_zero]
        exact one_le_mul_of_one_le_of_one_le number power
      have log := (le_log_iff ((two_zpow_pos 0).trans_le whole)).2 whole
      rw [mul_eq_nearest, value]
      · rfl
      · rw [value, target]
        show -(53 : ℤ) + 0 ≤ _
        omega
    · next negative =>
      have same : (-e).toNat = e.natAbs := by omega
      rw [div_eq_nearest, same, zpow_of_neg (by omega), zpow_zero, mul_one, mul_one,
        div_eq_mul_inv, Nat.cast_pow]
      rfl
  · show ¬ e < -((2 ^ 11 : ℤ) + m.log2)
    omega
  · show ¬ e > 2 ^ 11
    omega

/-- A scientific notation is rounded once, unless its exponent is absurd. -/
theorem ofScientific_eq {m : Nat} {e : ℤ} (pos : 0 < m) (low : -(2048 + m.log2 : ℤ) ≤ e)
    (high : e ≤ 2048) :
    Float.ofScientific m (e < 0) e.natAbs = ofParts (nearest .positive (m * 10 ^ e)) := by
  rw [Float.ofScientific]
  split
  · next small =>
    rw [← ofScientific_small pos small.1 (Nat.lt_succ_of_le small.2)]
    simp only [decide_eq_true_eq]
    rfl
  · have exponent : (if decide (e < 0) = true then Int.negOfNat e.natAbs else Int.ofNat e.natAbs) =
        e := by
      split
      · next negative =>
        have := of_decide_eq_true negative
        rw [Int.negOfNat_eq]
        show -(e.natAbs : ℤ) = e
        omega
      · next nonneg =>
        have := of_decide_eq_false (Bool.eq_false_iff.2 nonneg)
        show (e.natAbs : ℤ) = e
        omega
    simp only [exponent]
    rw [← ofScientific_large pos low high]
    rfl

/-! ## Decimals -/

/-- A number lies below the power of ten with as many zeros as it has digits, and not below the one
before that. -/
theorem Numeral.digits_bounds (n : Nat) :
    n < 10 ^ (digits n).length ∧ (n ≠ 0 → 10 ^ (digits n).length ≤ 10 * n) := by
  fun_induction digits n with
  | case1 n small =>
    show n < 10 ^ 1 ∧ (n ≠ 0 → 10 ^ 1 ≤ 10 * n)
    omega
  | case2 n large ih =>
    obtain ⟨below, least⟩ := ih
    have reached := least (by omega)
    rw [List.length_append, List.length_singleton, Nat.pow_succ]
    omega

theorem le_log_ten_iff {v : ℚ} {k : ℤ} (pos : 0 < v) : k ≤ Int.log 10 v ↔ 10 ^ k ≤ v := by
  have iff := Int.zpow_le_iff_le_log (b := 10) (x := k) (by norm_num) pos
  exact_mod_cast iff.symm

theorem log_ten_lt_iff {v : ℚ} {k : ℤ} (pos : 0 < v) : Int.log 10 v < k ↔ v < 10 ^ k := by
  have iff := Int.lt_zpow_iff_log_lt (b := 10) (x := k) (by norm_num) pos
  exact_mod_cast iff.symm

namespace Decimal

variable {d other : Decimal}

/-- The exact value of a decimal. -/
def value (d : Decimal) : ℚ := d.digits * 10 ^ d.exponent

theorem value_pos (nonzero : d.digits ≠ 0) : 0 < d.value := by
  have digits : (0 : ℚ) < d.digits := by exact_mod_cast Nat.pos_of_ne_zero nonzero
  exact mul_pos digits (zpow_pos (by norm_num) _)

theorem value_eq_zero_iff : d.value = 0 ↔ d.digits = 0 := by
  refine ⟨fun zero => ?_, fun zero => by rw [value, zero, Nat.cast_zero, zero_mul]⟩
  exact Decidable.byContradiction fun nonzero => (value_pos nonzero).ne' zero

/-- The order of magnitude is a matter of the value. -/
theorem order_eq (nonzero : d.digits ≠ 0) :
    d.length + d.exponent = Int.log 10 d.value + 1 := by
  have pos := value_pos nonzero
  obtain ⟨below, least⟩ := Numeral.digits_bounds d.digits
  have power : (0 : ℚ) < 10 ^ d.exponent := zpow_pos (by norm_num) _
  have split : (10 : ℚ) ^ (d.length + d.exponent) = 10 ^ d.length * 10 ^ d.exponent := by
    rw [zpow_add₀ (by norm_num), zpow_natCast]
  have high : d.value < 10 ^ (d.length + d.exponent) := by
    rw [split]
    exact mul_lt_mul_of_pos_right (by exact_mod_cast below) power
  have low : (10 : ℚ) ^ (d.length + d.exponent - 1) ≤ d.value := by
    have digits : (10 : ℚ) ^ d.length ≤ 10 * d.digits := by exact_mod_cast least nonzero
    rw [zpow_sub₀ (by norm_num), split, zpow_one, div_le_iff₀ (by norm_num), value]
    calc (10 : ℚ) ^ d.length * 10 ^ d.exponent ≤ 10 * d.digits * 10 ^ d.exponent :=
          mul_le_mul_of_nonneg_right digits power.le
      _ = d.digits * 10 ^ d.exponent * 10 := by ring
  have above := (log_ten_lt_iff pos).2 high
  have under := (le_log_ten_iff pos).2 low
  omega

/-- A decimal is rounded once, if it is not far too small or far too great. -/
theorem toFloat_of_nonzero (nonzero : d.digits ≠ 0) :
    d.toFloat =
      if Int.log 10 d.value + 1 < -330 then 0.0
      else if 310 < Int.log 10 d.value + 1 then 1.0 / 0.0
      else ofParts (nearest .positive d.value) := by
  have order := order_eq nonzero
  have digits : 10 ^ d.length ≤ 10 * d.digits := (Numeral.digits_bounds d.digits).2 nonzero
  have length : d.length ≤ d.digits.log2 + 4 := by
    have high : d.digits < 2 ^ (d.digits.log2 + 1) := Nat.lt_log2_self
    have power : 2 ^ d.length ≤ 10 ^ d.length := Nat.pow_le_pow_left (by decide) _
    have reach : 2 ^ d.length < 2 ^ (d.digits.log2 + 5) := by
      rw [Nat.pow_succ] at high
      rw [Nat.pow_add]
      omega
    exact Nat.le_of_lt_succ ((Nat.pow_lt_pow_iff_right (by decide)).1 reach)
  rw [toFloat]
  simp only [order, nonzero, false_or]
  split
  · rfl
  · split
    · rfl
    · exact ofScientific_eq (Nat.pos_of_ne_zero nonzero) (by omega) (by omega)

/-- Decimals of one value have one float. -/
theorem toFloat_of_value (same : d.value = other.value) : d.toFloat = other.toFloat := by
  by_cases zero : d.digits = 0
  · have otherZero : other.digits = 0 := by
      rw [← value_eq_zero_iff, ← same, value_eq_zero_iff, zero]
    rw [toFloat, toFloat, if_pos (Or.inl zero), if_pos (Or.inl otherZero)]
  · have otherNonzero : other.digits ≠ 0 := by
      rwa [ne_eq, ← value_eq_zero_iff, ← same, value_eq_zero_iff]
    rw [toFloat_of_nonzero zero, toFloat_of_nonzero otherNonzero, same]

end Decimal

end CellFormula
