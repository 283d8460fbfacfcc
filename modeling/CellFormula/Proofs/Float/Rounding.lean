import CellFormula.Proofs.Float.Bits

/-!
# Rounding

Operations on floats round an exact result, given as a mantissa, an exponent and what is known of
the digits cut off. Here the exact result is a rational number, and it is shown to be all that
matters: `nearest s v` is what any operation makes of the magnitude `v`.

Main statements: `Represents.eq_nearest`, rounding depends on the exact result alone;
`nearest_cases`, it gives the parts of a float; `nearest_of_legal`, the magnitude of a float is not
changed; `div_eq_nearest` and `mul_eq_nearest`, quotients and products are rounded exactly once.
-/

namespace CellFormula

open Float.Model UnpackedFloat

/-! ## Digits that are cut off -/

/-- A number is its whole part, a half if the round bit says so, and less than another half, of
which the sticky bit says whether it is there. -/
def Describes (em : ExtendedMantissa) (w : ℚ) : Prop :=
  ∃ r : ℚ, 0 ≤ r ∧ r < 1 / 2 ∧ (em.stickyBit = true ↔ r ≠ 0) ∧
    w = em.mantissa + (if em.roundBit then 1 / 2 else 0) + r

namespace Describes

variable {em other : ExtendedMantissa} {w : ℚ}

theorem exact (m : Nat) : Describes (.ofMantissaAndAccuracy m .exact) m :=
  ⟨0, le_refl 0, by norm_num, by simp [ExtendedMantissa.ofMantissaAndAccuracy],
    by simp [ExtendedMantissa.ofMantissaAndAccuracy]⟩

/-- A quotient is described by its whole part and the remainder. -/
theorem quotient {n d : Nat} (pos : 0 < d) :
    Describes (.ofMantissaAndAccuracy (n / d) (accuracyOfFraction (n % d) d)) (n / d : ℚ) := by
  have divisor : (0 : ℚ) < d := by exact_mod_cast pos
  have below : ((n % d : Nat) : ℚ) < d := by exact_mod_cast Nat.mod_lt n pos
  have whole : (n : ℚ) = d * (n / d : Nat) + (n % d : Nat) := by
    exact_mod_cast (Nat.div_add_mod n d).symm
  have value : (n / d : ℚ) = (n / d : Nat) + (n % d : Nat) / d := by
    rw [div_eq_iff divisor.ne', add_mul, div_mul_cancel₀ _ divisor.ne', whole]
    ring
  have nonneg : 0 ≤ ((n % d : Nat) : ℚ) / d := by positivity
  rw [value, accuracyOfFraction]
  by_cases empty : n % d = 0
  · rw [if_pos empty, empty]
    simpa using exact (n / d)
  · have nonzero : ((n % d : Nat) : ℚ) / d ≠ 0 := by
      have : ((n % d : Nat) : ℚ) ≠ 0 := by exact_mod_cast empty
      positivity
    rw [if_neg empty]
    cases half : compare (2 * (n % d)) d with
    | lt =>
      have less : (2 * (n % d : Nat) : ℚ) < d := by exact_mod_cast Nat.compare_eq_lt.1 half
      refine ⟨(n % d : Nat) / d, nonneg, ?_, ?_, ?_⟩
      · rw [div_lt_div_iff₀ divisor (by norm_num)]
        linarith
      · simpa [ExtendedMantissa.ofMantissaAndAccuracy] using nonzero
      · simp [ExtendedMantissa.ofMantissaAndAccuracy]
    | eq =>
      have same : (2 * (n % d : Nat) : ℚ) = d := by exact_mod_cast Nat.compare_eq_eq.1 half
      have fraction : ((n % d : Nat) : ℚ) / d = 1 / 2 := by
        rw [div_eq_div_iff divisor.ne' (by norm_num)]
        linarith
      exact ⟨0, le_refl 0, by norm_num, by simp [ExtendedMantissa.ofMantissaAndAccuracy],
        by simp [ExtendedMantissa.ofMantissaAndAccuracy, fraction]⟩
    | gt =>
      have more : (d : ℚ) < 2 * (n % d : Nat) := by exact_mod_cast Nat.compare_eq_gt.1 half
      have above : 1 / 2 < ((n % d : Nat) : ℚ) / d := by
        rw [div_lt_div_iff₀ (by norm_num) divisor]
        linarith
      have less : ((n % d : Nat) : ℚ) / d < 1 := (div_lt_one divisor).2 below
      refine ⟨(n % d : Nat) / d - 1 / 2, by linarith, by linarith, ?_, ?_⟩
      · have apart : ((n % d : Nat) : ℚ) / d - 1 / 2 ≠ 0 := by linarith
        simpa [ExtendedMantissa.ofMantissaAndAccuracy] using apart
      · simp [ExtendedMantissa.ofMantissaAndAccuracy]

theorem shiftRightOne (describes : Describes em w) : Describes em.shiftRightOne (w / 2) := by
  obtain ⟨m, round, sticky⟩ := em
  obtain ⟨r, nonneg, below, present, value⟩ := describes
  have whole : (m : ℚ) = 2 * (m / 2 : Nat) + (m % 2 : Nat) := by
    exact_mod_cast (Nat.div_add_mod m 2).symm
  simp only at present value
  -- what was the half becomes a quarter, and goes into the remainder
  refine ⟨((if round then 1 / 2 else 0) + r) / 2, ?_, ?_, ?_, ?_⟩
  · split <;> linarith
  · split <;> linarith
  · cases round with
    | false => simpa [ExtendedMantissa.shiftRightOne] using present
    | true =>
      have positive : (1 / 2 + r) / 2 ≠ 0 := by linarith
      simpa [ExtendedMantissa.shiftRightOne] using positive
  · rcases Nat.mod_two_eq_zero_or_one m with even | odd
    · rw [even] at whole
      simp only [ExtendedMantissa.shiftRightOne, even, value, whole]
      simp
      ring
    · rw [odd] at whole
      simp only [ExtendedMantissa.shiftRightOne, odd, value, whole]
      simp
      ring

theorem shiftRight (describes : Describes em w) (n : Nat) : Describes (em >>> n) (w / 2 ^ n) := by
  show Describes (n.repeat ExtendedMantissa.shiftRightOne em) _
  induction n with
  | zero => simpa [Nat.repeat] using describes
  | succ n ih =>
    rw [Nat.repeat, pow_succ, ← div_div]
    exact ih.shiftRightOne

/-- There is one description of a number. -/
theorem unique (first : Describes em w) (second : Describes other w) : em = other := by
  obtain ⟨m, round, sticky⟩ := em
  obtain ⟨n, otherRound, otherSticky⟩ := other
  obtain ⟨r, nonneg, below, present, value⟩ := first
  obtain ⟨q, otherNonneg, otherBelow, otherPresent, otherValue⟩ := second
  simp only at present value otherPresent otherValue
  obtain rfl : m = n := by
    have upper : (m : ℚ) < n + 1 := by
      split at value <;> split at otherValue <;> linarith
    have lower : (n : ℚ) < m + 1 := by
      split at value <;> split at otherValue <;> linarith
    have : m < n + 1 := by exact_mod_cast upper
    have : n < m + 1 := by exact_mod_cast lower
    omega
  obtain rfl : round = otherRound := by
    cases round <;> cases otherRound <;> simp at value otherValue <;> first | rfl | linarith
  obtain rfl : r = q := by linarith
  have same : sticky = otherSticky := Bool.eq_iff_iff.2 (present.trans otherPresent.symm)
  rw [same]

end Describes

/-! ## Rounding an exact result -/

/-- The exponent of a float next to a magnitude. -/
def target (v : ℚ) : ℤ := max (Int.log 2 v - 52) (-1074)

/-- The magnitude that `roundWithAccuracy` is asked to round: its digits below the exponent are cut
off, and the exponent is not above that of the result. -/
structure Represents (m : Nat) (e : ℤ) (accuracy : Accuracy) (v : ℚ) : Prop where
  describes : Describes (.ofMantissaAndAccuracy m accuracy) (v / 2 ^ e)
  fine : e ≤ target v

theorem two_zpow_pos (e : ℤ) : (0 : ℚ) < 2 ^ e := zpow_pos (by norm_num) e

theorem le_log_iff {v : ℚ} {k : ℤ} (pos : 0 < v) : k ≤ Int.log 2 v ↔ 2 ^ k ≤ v := by
  have iff := Int.zpow_le_iff_le_log (b := 2) (x := k) (by norm_num) pos
  exact_mod_cast iff.symm

theorem log_lt_iff {v : ℚ} {k : ℤ} (pos : 0 < v) : Int.log 2 v < k ↔ v < 2 ^ k := by
  have iff := Int.lt_zpow_iff_log_lt (b := 2) (x := k) (by norm_num) pos
  exact_mod_cast iff.symm

theorem log_eq_of_bounds {v : ℚ} {k : ℤ} (low : 2 ^ k ≤ v) (high : v < 2 ^ (k + 1)) :
    Int.log 2 v = k := by
  have pos : 0 < v := (two_zpow_pos k).trans_le low
  have above := (le_log_iff pos).2 low
  have below := (log_lt_iff pos).2 high
  omega

theorem targetExponent_eq (total : ℤ) :
    Format.binary64.targetExponent total = max (total - 53) (-1074) := rfl

theorem mantissa_ofMantissaAndAccuracy (m : Nat) (accuracy : Accuracy) :
    (ExtendedMantissa.ofMantissaAndAccuracy m accuracy).mantissa = m := by
  unfold ExtendedMantissa.ofMantissaAndAccuracy
  split <;> rfl

theorem Describes.bounds {em : ExtendedMantissa} {w : ℚ} (describes : Describes em w) :
    em.mantissa ≤ w ∧ w < em.mantissa + 1 := by
  obtain ⟨r, nonneg, below, _, value⟩ := describes
  split at value <;> constructor <;> linarith

namespace Represents

variable {m n : Nat} {e k : ℤ} {accuracy other : Accuracy} {v : ℚ}

theorem bounds (represents : Represents m e accuracy v) : m * 2 ^ e ≤ v ∧ v < (m + 1) * 2 ^ e := by
  have power := two_zpow_pos e
  obtain ⟨low, high⟩ := represents.describes.bounds
  rw [mantissa_ofMantissaAndAccuracy] at low high
  exact ⟨(le_div_iff₀ power).1 low, (div_lt_iff₀ power).1 high⟩

theorem log_eq (represents : Represents m e accuracy v) (nonzero : 0 < m) :
    Int.log 2 v = m.log2 + e := by
  have power := two_zpow_pos e
  obtain ⟨low, high⟩ := represents.bounds
  have least : ((2 : ℚ) ^ m.log2) ≤ m := by exact_mod_cast Nat.log2_self_le (by omega)
  have most : (m : ℚ) + 1 ≤ 2 ^ (m.log2 + 1) := by exact_mod_cast Nat.lt_log2_self
  refine log_eq_of_bounds ?_ ?_
  · rw [zpow_add₀ (by norm_num), zpow_natCast]
    exact le_trans (mul_le_mul_of_nonneg_right least power.le) low
  · have split : (2 : ℚ) ^ ((m.log2 : ℤ) + e + 1) = 2 ^ (m.log2 + 1) * 2 ^ e := by
      rw [← zpow_natCast, ← zpow_add₀ (by norm_num)]
      congr 1
      push_cast
      ring
    rw [split]
    exact lt_of_lt_of_le high (mul_le_mul_of_nonneg_right most power.le)

theorem targetExponent_eq (represents : Represents m e accuracy v) (pos : 0 < v) :
    Format.binary64.targetExponent (totalExponent m e) = target v := by
  rw [CellFormula.targetExponent_eq, totalExponent, target]
  rcases Nat.eq_zero_or_pos m with empty | nonzero
  · -- without a digit above the exponent it is the least one already
    subst empty
    have fine := represents.fine
    have high := represents.bounds.2
    rw [Nat.cast_zero, zero_add, one_mul] at high
    have low := (log_lt_iff pos).2 high
    rw [target] at fine
    have : (0 : Nat).log2 = 0 := by decide
    omega
  · rw [represents.log_eq nonzero]
    congr 1
    omega

/-- The digits are shifted to where those of the result end. -/
theorem shift (represents : Represents m e accuracy v) (pos : 0 < v) :
    ∃ em, shiftToTargetExponent .binary64 m e accuracy = (em, target v) ∧
      Describes em (v / 2 ^ target v) := by
  have fine := represents.fine
  rw [shiftToTargetExponent, represents.targetExponent_eq pos, shiftToExponent]
  have reached : e + ((target v - e).toNat : ℤ) = target v := by omega
  refine ⟨_, by rw [reached], ?_⟩
  have split : v / 2 ^ target v = v / 2 ^ e / 2 ^ (target v - e).toNat := by
    rw [div_div, ← zpow_natCast, ← zpow_add₀ (by norm_num), reached]
  rw [split]
  exact represents.describes.shiftRight _

/-- What is rounded matters, not how it is given. -/
theorem round_eq (first : Represents m e accuracy v) (second : Represents n k other v) (pos : 0 < v)
    (s : Sign) :
    roundWithAccuracy .binary64 s m e accuracy = roundWithAccuracy .binary64 s n k other := by
  obtain ⟨em, shifted, describes⟩ := first.shift pos
  obtain ⟨otherEm, otherShifted, otherDescribes⟩ := second.shift pos
  cases describes.unique otherDescribes
  simp only [roundWithAccuracy, shifted, otherShifted]

end Represents

/-- What is made of a positive magnitude: the float next to it, or the one with an even mantissa if
two are equally near. -/
def nearest (s : Sign) (v : ℚ) : UnpackedFloat :=
  let w := v / 2 ^ target v
  roundWithAccuracy .binary64 s (w.num.toNat / w.den) (target v)
    (accuracyOfFraction (w.num.toNat % w.den) w.den)

theorem represents_quotient {n d : Nat} {e : ℤ} {v : ℚ} (pos : 0 < d) (value : v / 2 ^ e = n / d)
    (fine : e ≤ target v) : Represents (n / d) e (accuracyOfFraction (n % d) d) v := by
  refine ⟨?_, fine⟩
  rw [value]
  exact .quotient pos

theorem represents_self {v : ℚ} (pos : 0 < v) :
    Represents ((v / 2 ^ target v).num.toNat / (v / 2 ^ target v).den) (target v)
      (accuracyOfFraction ((v / 2 ^ target v).num.toNat % (v / 2 ^ target v).den)
        (v / 2 ^ target v).den) v := by
  have quotient : 0 < v / 2 ^ target v := div_pos pos (two_zpow_pos _)
  have num : ((v / 2 ^ target v).num.toNat : ℤ) = (v / 2 ^ target v).num :=
    Int.toNat_of_nonneg (Rat.num_nonneg.2 quotient.le)
  refine represents_quotient (v / 2 ^ target v).den_pos ?_ (le_refl _)
  rw [← Int.cast_natCast, num, Rat.num_div_den]

theorem Represents.eq_nearest {m : Nat} {e : ℤ} {accuracy : Accuracy} {v : ℚ}
    (represents : Represents m e accuracy v) (pos : 0 < v) (s : Sign) :
    roundWithAccuracy .binary64 s m e accuracy = nearest s v :=
  represents.round_eq (represents_self pos) pos s

/-! ## Magnitudes of floats -/

/-- The magnitude of a float is represented by its parts. -/
theorem Legal.represents {m : Nat} {e : ℤ} (legal : Legal m e) :
    Represents m e .exact (m * 2 ^ e) := by
  have power := two_zpow_pos e
  have value : (m * 2 ^ e : ℚ) / 2 ^ e = m := mul_div_cancel_right₀ _ power.ne'
  have describes : Describes (.ofMantissaAndAccuracy m .exact) ((m * 2 ^ e : ℚ) / 2 ^ e) := by
    rw [value]
    exact .exact m
  refine ⟨describes, ?_⟩
  rw [target]
  by_cases least : e = -1074
  · omega
  · have full := legal.full least
    have low : (2 : ℚ) ^ (52 + e) ≤ m * 2 ^ e := by
      rw [zpow_add₀ (by norm_num)]
      have : (2 : ℚ) ^ (52 : ℤ) ≤ m := by exact_mod_cast full
      exact mul_le_mul_of_nonneg_right this power.le
    have pos : (0 : ℚ) < m * 2 ^ e := mul_pos (by exact_mod_cast legal.pos) power
    have log := (le_log_iff pos).2 low
    omega

theorem log2_le_of_short {m : Nat} (short : m < 2 ^ 53) : m.log2 ≤ 52 := by
  rcases Nat.eq_zero_or_pos m with empty | pos
  · subst empty
    decide
  · exact Nat.le_of_lt_succ ((Nat.log2_lt (by omega)).2 short)

/-- Legal parts stay as they are when they are shifted to their target. -/
theorem shiftToTargetExponent_of_short {m : Nat} {e : ℤ} (short : m < 2 ^ 53) (least : -1074 ≤ e) :
    shiftToTargetExponent .binary64 m e .exact = (.ofMantissaAndAccuracy m .exact, e) := by
  have log := log2_le_of_short short
  have amount : (Format.binary64.targetExponent (totalExponent m e) - e).toNat = 0 := by
    rw [targetExponent_eq, totalExponent]
    omega
  rw [shiftToTargetExponent, shiftToExponent, amount]
  simp only [Nat.cast_zero, add_zero]
  rfl

/-- Rounding shifts to the target, rounds, and shifts once more. -/
theorem roundWithAccuracy_of_shift {s : Sign} {m r : Nat} {e t k : ℤ} {accuracy : Accuracy}
    {em : ExtendedMantissa} (shifted : shiftToTargetExponent .binary64 m e accuracy = (em, t))
    (final : shiftToTargetExponent .binary64 em.roundedMantissa t .exact =
      (.ofMantissaAndAccuracy r .exact, k)) :
    roundWithAccuracy .binary64 s m e accuracy =
      if empty : r = 0 then .zero s else .finite s r k (Nat.pos_of_ne_zero empty) := by
  simp only [roundWithAccuracy, shifted, final, mantissa_ofMantissaAndAccuracy]

/-- Legal parts are not changed by rounding. -/
theorem Legal.round_eq {s : Sign} {m : Nat} {e : ℤ} (legal : Legal m e) :
    roundWithAccuracy .binary64 s m e .exact = .finite s m e legal.pos := by
  have shifted := shiftToTargetExponent_of_short legal.short legal.least
  rw [roundWithAccuracy_of_shift shifted shifted, dif_neg (Nat.ne_of_gt legal.pos)]

/-- A mantissa one digit too long, a power of two, loses its last digit. -/
theorem shiftToTargetExponent_carry {e : ℤ} (least : -1074 ≤ e) :
    shiftToTargetExponent .binary64 (2 ^ 53) e .exact =
      (.ofMantissaAndAccuracy (2 ^ 52) .exact, e + 1) := by
  have amount : (Format.binary64.targetExponent (totalExponent (2 ^ 53) e) - e).toNat = 1 := by
    rw [targetExponent_eq, totalExponent, Nat.log2_two_pow]
    omega
  rw [shiftToTargetExponent, shiftToExponent, amount]
  rfl

theorem le_roundedMantissa (em : ExtendedMantissa) : em.mantissa ≤ em.roundedMantissa := by
  obtain ⟨m, round, sticky⟩ := em
  cases round <;> cases sticky <;>
    simp [ExtendedMantissa.roundedMantissa, ExtendedMantissa.accuracy, Accuracy.roundToNearestEven]

theorem roundedMantissa_le (em : ExtendedMantissa) : em.roundedMantissa ≤ em.mantissa + 1 := by
  obtain ⟨m, round, sticky⟩ := em
  have parity : m % 2 < 2 := Nat.mod_lt m (by decide)
  cases round <;> cases sticky <;>
    simp only [ExtendedMantissa.roundedMantissa, ExtendedMantissa.accuracy,
      Accuracy.roundToNearestEven] <;> omega

/-- The digits that are kept fit into a mantissa, and fill it if the exponent is not the least. -/
theorem Describes.kept {em : ExtendedMantissa} {v : ℚ} (describes : Describes em (v / 2 ^ target v))
    (positive : 0 < v) : em.mantissa < 2 ^ 53 ∧ (target v ≠ -1074 → 2 ^ 52 ≤ em.mantissa) := by
  obtain ⟨low, high⟩ := describes.bounds
  have power := two_zpow_pos (target v)
  refine ⟨?_, fun other => ?_⟩
  · have reach : v < 2 ^ (53 + target v) :=
      (log_lt_iff positive).1 (by rw [target]; omega)
    have most : v / 2 ^ target v < 2 ^ 53 := by
      rw [div_lt_iff₀ power]
      rwa [zpow_add₀ (by norm_num)] at reach
    exact_mod_cast low.trans_lt most
  · have reach : 2 ^ (52 + target v) ≤ v :=
      (le_log_iff positive).1 (by rw [target] at other ⊢; omega)
    have least : (2 : ℚ) ^ 52 ≤ v / 2 ^ target v := by
      rw [le_div_iff₀ power]
      rwa [zpow_add₀ (by norm_num)] at reach
    have next : (2 : ℚ) ^ 52 < em.mantissa + 1 := least.trans_lt high
    exact Nat.le_of_lt_succ (by exact_mod_cast next)

/-- A rounded result has the rounded mantissa at the target exponent. It is a zero, or it has the
parts of a float except that its exponent may be too great. -/
theorem nearest_cases {v : ℚ} (positive : 0 < v) (s : Sign) :
    ∃ em, Describes em (v / 2 ^ target v) ∧
      (nearest s v = .zero s ∧ em.roundedMantissa = 0 ∨
        ∃ m e pos, nearest s v = .finite s m e pos ∧ m < 2 ^ 53 ∧ target v ≤ e ∧
          (e ≠ -1074 → 2 ^ 52 ≤ m) ∧ (m * 2 ^ e : ℚ) = em.roundedMantissa * 2 ^ target v) := by
  obtain ⟨em, shifted, describes⟩ := (represents_self positive).shift positive
  obtain ⟨short, full⟩ := describes.kept positive
  have least : -1074 ≤ target v := le_max_right _ _
  have above := le_roundedMantissa em
  have below := roundedMantissa_le em
  refine ⟨em, describes, ?_⟩
  rw [nearest]
  rcases Nat.lt_or_ge em.roundedMantissa (2 ^ 53) with fits | carry
  · rw [roundWithAccuracy_of_shift shifted (shiftToTargetExponent_of_short fits least)]
    by_cases empty : em.roundedMantissa = 0
    · exact Or.inl ⟨dif_pos empty, empty⟩
    · exact Or.inr ⟨_, _, Nat.pos_of_ne_zero empty, dif_neg empty, fits, le_refl _,
        fun other => (full other).trans above, rfl⟩
  · have power : em.roundedMantissa = 2 ^ 53 := by omega
    have final := shiftToTargetExponent_carry least
    rw [← power] at final
    rw [roundWithAccuracy_of_shift shifted final, dif_neg (by decide), power]
    refine Or.inr ⟨2 ^ 52, _, by decide, rfl, by decide, by omega, fun _ => le_refl _, ?_⟩
    rw [zpow_add₀ (by norm_num)]
    push_cast
    ring

/-- The magnitude of a float is not changed by rounding. -/
theorem nearest_of_legal {m : Nat} {e : ℤ} (legal : Legal m e) (s : Sign) :
    nearest s (m * 2 ^ e) = .finite s m e legal.pos := by
  have pos : (0 : ℚ) < m * 2 ^ e := mul_pos (by exact_mod_cast legal.pos) (two_zpow_pos e)
  rw [← legal.represents.eq_nearest pos, legal.round_eq]

/-! ## Quotients and products -/

variable {m n : Nat} {e k : ℤ} {s sign : Sign}

theorem log_div_le {v : ℚ} (pos : 0 < m) (divisor : 0 < n) (value : v = m * 2 ^ e / (n * 2 ^ k)) :
    (m.log2 + e) - (n.log2 + k) - 1 ≤ Int.log 2 v := by
  have numerator : (2 : ℚ) ^ (m.log2 + e) ≤ m * 2 ^ e := by
    have : ((2 : ℚ) ^ m.log2) ≤ m := by exact_mod_cast Nat.log2_self_le (by omega)
    rw [zpow_add₀ (by norm_num), zpow_natCast]
    exact mul_le_mul_of_nonneg_right this (two_zpow_pos e).le
  have denominator : (n * 2 ^ k : ℚ) ≤ 2 ^ (n.log2 + k + 1) := by
    have : (n : ℚ) ≤ 2 ^ (n.log2 + 1) := by exact_mod_cast Nat.lt_log2_self.le
    have split : (2 : ℚ) ^ ((n.log2 : ℤ) + k + 1) = 2 ^ (n.log2 + 1) * 2 ^ k := by
      rw [← zpow_natCast, ← zpow_add₀ (by norm_num)]
      congr 1
      push_cast
      ring
    rw [split]
    exact mul_le_mul_of_nonneg_right this (two_zpow_pos k).le
  have below : (0 : ℚ) < n * 2 ^ k := mul_pos (by exact_mod_cast divisor) (two_zpow_pos k)
  have positive : 0 < v := by
    rw [value]
    exact div_pos (mul_pos (by exact_mod_cast pos) (two_zpow_pos e)) below
  refine (le_log_iff positive).2 ?_
  have exponents :
      ((m.log2 : ℤ) + e) - (n.log2 + k) - 1 = (m.log2 + e) - (n.log2 + k + 1) := by ring
  rw [value, exponents, zpow_sub₀ (by norm_num)]
  exact div_le_div₀ ((two_zpow_pos _).le.trans numerator) numerator below denominator

theorem div_eq_nearest (pos : 0 < m) (divisor : 0 < n) :
    UnpackedFloat.div .binary64 (.finite s m e pos) (.finite sign n k divisor) =
      nearest (s / sign) (m * 2 ^ e / (n * 2 ^ k)) := by
  have below : (0 : ℚ) < n * 2 ^ k := mul_pos (by exact_mod_cast divisor) (two_zpow_pos k)
  have positive : (0 : ℚ) < m * 2 ^ e / (n * 2 ^ k) :=
    div_pos (mul_pos (by exact_mod_cast pos) (two_zpow_pos e)) below
  have log := log_div_le pos divisor (e := e) (k := k) rfl
  rw [UnpackedFloat.div, divCore]
  simp only [targetExponent_eq, totalExponent]
  generalize chosen : min (e - k)
    (max ((m.log2 : ℤ) + 1 + e - ((n.log2 : ℤ) + 1 + k) - 53) (-1074)) = t
  refine (represents_quotient divisor ?_ ?_).eq_nearest positive _
  · have shift : ((e - k - t).toNat : ℤ) = e - k - t := by omega
    have power : (2 : ℚ) ^ (e - k - t) = 2 ^ e / 2 ^ k / 2 ^ t := by
      rw [zpow_sub₀ (by norm_num), zpow_sub₀ (by norm_num)]
    rw [Nat.shiftLeft_eq, Nat.cast_mul, Nat.cast_pow, Nat.cast_ofNat, ← zpow_natCast, shift, power]
    have := two_zpow_pos k
    have := two_zpow_pos t
    field_simp
  · rw [target]
    omega

theorem mul_eq_nearest (pos : 0 < m) (factor : 0 < n)
    (fine : e + k ≤ target (m * 2 ^ e * (n * 2 ^ k))) :
    UnpackedFloat.mul .binary64 (.finite s m e pos) (.finite sign n k factor) =
      nearest (s * sign) (m * 2 ^ e * (n * 2 ^ k)) := by
  have left : (0 : ℚ) < m * 2 ^ e := mul_pos (by exact_mod_cast pos) (two_zpow_pos e)
  have right : (0 : ℚ) < n * 2 ^ k := mul_pos (by exact_mod_cast factor) (two_zpow_pos k)
  have value : (m * 2 ^ e * (n * 2 ^ k) : ℚ) / 2 ^ (e + k) = (m * n : Nat) := by
    rw [zpow_add₀ (by norm_num), Nat.cast_mul]
    have := two_zpow_pos k
    have := two_zpow_pos e
    field_simp
  have represents : Represents (m * n) (e + k) .exact (m * 2 ^ e * (n * 2 ^ k)) := by
    refine ⟨?_, fine⟩
    rw [value]
    exact .exact _
  exact represents.eq_nearest (mul_pos left right) _

end CellFormula
