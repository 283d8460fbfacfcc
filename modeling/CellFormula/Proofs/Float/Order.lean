import CellFormula.Operator.Apply
import CellFormula.Proofs.Decimal.Shortest

/-!
# The order of floats

The bits of a float denote a rational number or an infinity. Floats are compared by what they
denote. To an exact result no float is nearer than the one it is rounded to, and so it is with an
integer that is converted to a float.

Main statements: `compareFloats_eq`, floats that are numbers compare as what they denote;
`abs_nearest_sub_le`, rounding finds a nearest float; `approximates_toFloat`, so does the conversion
of an integer; `toFloat_mono`, `toFloat_le` and `le_toFloat`, conversion keeps the order;
`exactFloat_toFloat_of_small`, and it is exact up to `2 ^ 53`.
-/

namespace CellFormula

open Float.Model UnpackedFloat

/-! ## What floats denote -/

/-- The rational numbers and an infinity on either side. -/
abbrev Extended := WithBot (WithTop ℚ)

/-- A rational number among the extended ones. -/
def Extended.ofRat (q : ℚ) : Extended := ((q : WithTop ℚ) : WithBot (WithTop ℚ))

namespace Extended

variable {q r : ℚ}

theorem ofRat_strictMono : StrictMono ofRat :=
  WithBot.coe_strictMono.comp WithTop.coe_strictMono

theorem ofRat_le_iff : ofRat q ≤ ofRat r ↔ q ≤ r := ofRat_strictMono.le_iff_le

theorem ofRat_inj : ofRat q = ofRat r ↔ q = r := ofRat_strictMono.injective.eq_iff

theorem compare_ofRat (q r : ℚ) : compare (ofRat q) (ofRat r) = compare q r := by
  rw [← cmp_eq_compare, ← cmp_eq_compare, ofRat_strictMono.cmp_map_eq]

theorem bot_lt_ofRat (q : ℚ) : ⊥ < ofRat q := WithBot.bot_lt_coe _

theorem ofRat_lt_top (q : ℚ) : ofRat q < ⊤ := WithBot.coe_lt_coe.2 (WithTop.coe_lt_top q)

@[simp] theorem compare_bot_ofRat (q : ℚ) : compare ⊥ (ofRat q) = .lt :=
  compare_lt_iff_lt.2 (bot_lt_ofRat q)

@[simp] theorem compare_ofRat_bot (q : ℚ) : compare (ofRat q) ⊥ = .gt :=
  compare_gt_iff_gt.2 (bot_lt_ofRat q)

@[simp] theorem compare_ofRat_top (q : ℚ) : compare (ofRat q) ⊤ = .lt :=
  compare_lt_iff_lt.2 (ofRat_lt_top q)

@[simp] theorem compare_top_ofRat (q : ℚ) : compare ⊤ (ofRat q) = .gt :=
  compare_gt_iff_gt.2 (ofRat_lt_top q)

end Extended

/-- The rational number or infinity that the bits of a float denote. -/
def exactFloat (x : Float) : Extended :=
  if x.isInf then if isNegative x then ⊥ else ⊤
  else .ofRat (if isNegative x then -(Binary.ofFloat x).value else (Binary.ofFloat x).value)

/-- What the parts of a float denote. Those of no number denote nothing, and are put at the end. -/
def denoted : UnpackedFloat → Extended
  | .infinity .positive | .notANumber => ⊤
  | .infinity .negative => ⊥
  | .zero _ => .ofRat 0
  | .finite .positive m e _ => .ofRat (m * 2 ^ e)
  | .finite .negative m e _ => .ofRat (-(m * 2 ^ e))

theorem exactFloat_eq {x : Float} (number : x.isNaN = false) :
    exactFloat x = denoted (parts x) := by
  have infinite : x.isInf = (parts x).isInf := rfl
  rw [exactFloat, infinite, isNegative_eq]
  cases found : parts x with
  | infinity s => cases s <;> rfl
  | notANumber =>
    change (parts x).isNaN = false at number
    rw [found] at number
    cases number
  | zero s =>
    rw [ofFloat_of_zero found]
    cases s <;> simp [denoted, signed, Binary.value, UnpackedFloat.isInf]
  | finite s m e pos =>
    rw [(of_parts_finite found).2]
    cases s <;> rfl

/-! ## Comparing floats -/

/-- A mantissa with an exponent is below every full one with a greater exponent. -/
theorem mul_two_zpow_lt {m : Nat} {e k : ℤ} (short : m < 2 ^ 53) (less : e < k) :
    (m * 2 ^ e : ℚ) < 2 ^ 52 * 2 ^ k := by
  have step : (2 : ℚ) ^ (e + 1) ≤ 2 ^ k := zpow_le_zpow_right₀ (by norm_num) (by omega)
  calc (m * 2 ^ e : ℚ) < 2 ^ 53 * 2 ^ e :=
        mul_lt_mul_of_pos_right (by exact_mod_cast short) (two_zpow_pos e)
    _ = 2 ^ 52 * 2 ^ (e + 1) := by rw [zpow_add₀ (by norm_num)]; ring
    _ ≤ 2 ^ 52 * 2 ^ k := mul_le_mul_of_nonneg_left step (by positivity)

namespace Legal

variable {m n : Nat} {e k : ℤ}

theorem value_pos (legal : Legal m e) : (0 : ℚ) < m * 2 ^ e :=
  mul_pos (by exact_mod_cast legal.pos) (two_zpow_pos e)

/-- Of two magnitudes, the one with the smaller exponent is smaller. -/
theorem lt_of_exponent_lt (first : Legal m e) (second : Legal n k) (less : e < k) :
    (m * 2 ^ e : ℚ) < n * 2 ^ k := by
  have full : (2 ^ 52 : ℚ) ≤ n := by
    have least := first.least
    exact_mod_cast second.full (by omega)
  exact (mul_two_zpow_lt first.short less).trans_le
    (mul_le_mul_of_nonneg_right full (two_zpow_pos k).le)

/-- Magnitudes are compared by their exponents first. -/
theorem compare_eq (first : Legal m e) (second : Legal n k) :
    (compare e k).then (compare m n) = compare (m * 2 ^ e : ℚ) (n * 2 ^ k) := by
  rcases lt_trichotomy e k with less | rfl | more
  · rw [compare_lt_iff_lt.2 less, compare_lt_iff_lt.2 (lt_of_exponent_lt first second less)]
    rfl
  · have scaled : StrictMono fun i : Nat => (i * 2 ^ e : ℚ) := fun i j less =>
      mul_lt_mul_of_pos_right (by exact_mod_cast less) (two_zpow_pos e)
    rw [compare_eq_iff_eq.2 rfl, ← cmp_eq_compare, ← cmp_eq_compare, scaled.cmp_map_eq m n]
    rfl
  · rw [compare_gt_iff_gt.2 more, compare_gt_iff_gt.2 (lt_of_exponent_lt second first more)]
    rfl

end Legal

theorem compare_neg_neg (q r : ℚ) : compare (-q) (-r) = (compare q r).swap := by
  have turns : StrictAnti fun q : ℚ => -q := fun _ _ => neg_lt_neg
  rw [← cmp_eq_compare, ← cmp_eq_compare, cmp_swap, turns.cmp_map_eq]

/-- The parts of the floats that are numbers. -/
inductive IsNumber : UnpackedFloat → Prop
  | infinity (s : Sign) : IsNumber (.infinity s)
  | zero (s : Sign) : IsNumber (.zero s)
  | finite (s : Sign) {m : Nat} {e : ℤ} (legal : Legal m e) : IsNumber (.finite s m e legal.pos)

theorem isNumber_parts {x : Float} (number : x.isNaN = false) : IsNumber (parts x) := by
  change (parts x).isNaN = false at number
  cases found : parts x with
  | infinity s => exact .infinity s
  | notANumber =>
    rw [found] at number
    cases number
  | zero s => exact .zero s
  | finite s m e pos => exact .finite s (of_parts_finite found).1

namespace IsNumber

variable {u v : UnpackedFloat}

/-- Nonzero magnitudes compare as what they denote with their signs. -/
theorem compare_finite {m n : Nat} {e k : ℤ} (s t : Sign) (first : Legal m e)
    (second : Legal n k) :
    UnpackedFloat.compare (.finite s m e first.pos) (.finite t n k second.pos) =
      some (compare (denoted (.finite s m e first.pos)) (denoted (.finite t n k second.pos))) := by
  have left := first.value_pos
  have right := second.value_pos
  cases s <;> cases t <;> rw [UnpackedFloat.compare, denoted, denoted, Extended.compare_ofRat]
  case negative.negative => rw [compare_neg_neg, first.compare_eq second]
  case negative.positive => rw [compare_lt_iff_lt.2 (by linarith)]
  case positive.negative => rw [compare_gt_iff_gt.2 (by linarith)]
  case positive.positive => rw [first.compare_eq second]

/-- Numbers compare as what they denote. -/
theorem compare_eq (left : IsNumber u) (right : IsNumber v) :
    u.compare v = some (compare (denoted u) (denoted v)) := by
  cases left with
  | infinity s =>
    cases right with
    | infinity t => cases s <;> cases t <;> rfl
    | zero t => cases s <;> simp [UnpackedFloat.compare, denoted]
    | finite t legal => cases s <;> cases t <;> simp [UnpackedFloat.compare, denoted]
  | zero s =>
    cases right with
    | infinity t => cases t <;> simp [UnpackedFloat.compare, denoted]
    | zero t => simp [UnpackedFloat.compare, denoted]
    | finite t legal =>
      have above := legal.value_pos
      cases t <;> rw [UnpackedFloat.compare, denoted, denoted, Extended.compare_ofRat]
      case negative => rw [compare_gt_iff_gt.2 (by linarith)]
      case positive => rw [compare_lt_iff_lt.2 above]
  | finite s legal =>
    cases right with
    | infinity t => cases s <;> cases t <;> simp [UnpackedFloat.compare, denoted]
    | zero t =>
      have above := legal.value_pos
      cases s <;> rw [UnpackedFloat.compare, denoted, denoted, Extended.compare_ofRat]
      case negative => rw [compare_lt_iff_lt.2 (by linarith)]
      case positive => rw [compare_gt_iff_gt.2 above]
    | finite t other => exact compare_finite s t legal other

end IsNumber

theorem lt_iff_compare (x y : Float) : x < y ↔ (parts x).compare (parts y) = some .lt := by
  show decide (((parts x).compare (parts y) == some .lt) = true) = true ↔ _
  rw [decide_eq_true_iff, beq_iff_eq]

theorem beq_iff_compare (x y : Float) :
    (x == y) = true ↔ (parts x).compare (parts y) = some .eq := by
  show ((parts x).compare (parts y) == some .eq) = true ↔ _
  rw [beq_iff_eq]

/-- Floats that are numbers compare as what they denote. -/
theorem compareFloats_eq {x y : Float} (left : x.isNaN = false) (right : y.isNaN = false) :
    compareFloats x y = some (compare (exactFloat x) (exactFloat y)) := by
  have forward := (isNumber_parts left).compare_eq (isNumber_parts right)
  have backward := (isNumber_parts right).compare_eq (isNumber_parts left)
  rw [← exactFloat_eq left, ← exactFloat_eq right] at forward backward
  have less : x < y ↔ exactFloat x < exactFloat y := by
    rw [lt_iff_compare, forward, Option.some.injEq, compare_lt_iff_lt]
  have more : y < x ↔ exactFloat y < exactFloat x := by
    rw [lt_iff_compare, backward, Option.some.injEq, compare_lt_iff_lt]
  have same : (x == y) = true ↔ exactFloat x = exactFloat y := by
    rw [beq_iff_compare, forward, Option.some.injEq, compare_eq_iff_eq]
  rw [compareFloats]
  simp only [less, more, same]
  rcases lt_trichotomy (exactFloat x) (exactFloat y) with below | equal | above
  · rw [if_pos below, compare_lt_iff_lt.2 below]
  · rw [equal, if_neg (lt_irrefl _), if_neg (lt_irrefl _), if_pos rfl, compare_eq_iff_eq.2 rfl]
  · rw [if_neg above.asymm, if_pos above, compare_gt_iff_gt.2 above]

/-! ## The nearest float -/

namespace Describes

variable {em : ExtendedMantissa} {w : ℚ}

/-- Rounding changes a number by no more than a half. -/
theorem abs_rounded_sub_le (describes : Describes em w) :
    |(em.roundedMantissa : ℚ) - w| ≤ 1 / 2 := by
  obtain ⟨m, round, sticky⟩ := em
  obtain ⟨r, nonneg, below, present, value⟩ := describes
  simp only at present value
  rw [abs_le]
  cases round with
  | false =>
    have down : (ExtendedMantissa.mk m false sticky).roundedMantissa = m := by
      cases sticky <;> rfl
    simp only [Bool.false_eq_true, if_false] at value
    rw [down]
    constructor <;> linarith
  | true =>
    simp only [if_true] at value
    cases sticky with
    | true =>
      have up : (ExtendedMantissa.mk m true true).roundedMantissa = m + 1 := rfl
      rw [up]
      push_cast
      constructor <;> linarith
    | false =>
      have half : r = 0 := by simpa using present
      have parity : (ExtendedMantissa.mk m true false).roundedMantissa = m ∨
          (ExtendedMantissa.mk m true false).roundedMantissa = m + 1 := by
        have low := le_roundedMantissa (.mk m true false)
        have high := roundedMantissa_le (.mk m true false)
        simp only at low high
        omega
      rcases parity with even | odd
      · rw [even]
        constructor <;> linarith
      · rw [odd]
        push_cast
        constructor <;> linarith

/-- No whole number is nearer than the rounded mantissa. -/
theorem abs_rounded_sub_le_abs_sub (describes : Describes em w) (k : ℤ) :
    |(em.roundedMantissa : ℚ) - w| ≤ |(k : ℚ) - w| := by
  have near := describes.abs_rounded_sub_le
  by_cases same : k = em.roundedMantissa
  · rw [same, Int.cast_natCast]
  · have apart : (1 : ℚ) ≤ |(k : ℚ) - em.roundedMantissa| := by
      have := Int.one_le_abs (sub_ne_zero.2 same)
      exact_mod_cast this
    have path := abs_sub_le (k : ℚ) w em.roundedMantissa
    rw [abs_sub_comm w] at path
    linarith

end Describes

/-- The magnitude that the parts of a finite float have. -/
def magnitude : UnpackedFloat → ℚ
  | .finite _ m e _ => m * 2 ^ e
  | .zero _ | .infinity _ | .notANumber => 0

/-- The rational numbers with digits that a float has room for. -/
def Representable (q : ℚ) : Prop :=
  ∃ (m : Nat) (e : ℤ), m < 2 ^ 53 ∧ -1074 ≤ e ∧ |q| = m * 2 ^ e

/-- No number that floats have room for is nearer than the result of rounding. -/
theorem abs_nearest_sub_le {v q : ℚ} (positive : 0 < v) (s : Sign)
    (representable : Representable q) : |magnitude (nearest s v) - v| ≤ |q - v| := by
  obtain ⟨em, describes, shape⟩ := nearest_cases positive s
  have power := two_zpow_pos (target v)
  have rounded : magnitude (nearest s v) = em.roundedMantissa * 2 ^ target v := by
    rcases shape with ⟨zero, empty⟩ | ⟨m, e, pos, finite, -, -, -, value⟩
    · rw [zero, empty, Nat.cast_zero, zero_mul]
      rfl
    · rw [finite, ← value]
      rfl
  -- the multiples of the last place are those that rounding chooses from
  have grid : ∀ k : ℤ, |magnitude (nearest s v) - v| ≤ |k * 2 ^ target v - v| := by
    intro k
    have scale : ∀ a : ℚ, |a * 2 ^ target v - v| = |a - v / 2 ^ target v| * 2 ^ target v := by
      intro a
      rw [← abs_of_pos power, ← abs_mul, abs_of_pos power, sub_mul, div_mul_cancel₀ _ power.ne']
    rw [rounded, scale, scale]
    exact mul_le_mul_of_nonneg_right (describes.abs_rounded_sub_le_abs_sub k) power.le
  obtain ⟨m, e, short, least, value⟩ := representable
  have outward : |(m * 2 ^ e : ℚ) - v| ≤ |q - v| := by
    rw [← value]
    conv => lhs; rw [← abs_of_pos positive]
    exact abs_abs_sub_abs_le q v
  refine le_trans ?_ outward
  rcases lt_or_ge e (target v) with fine | coarse
  · -- a number with digits below the last place is smaller than every number without
    have low : (2 ^ 52 * 2 ^ target v : ℚ) ≤ v := by
      have reach : (2 : ℚ) ^ (52 + target v) ≤ v := by
        refine (le_log_iff positive).1 ?_
        rw [target] at fine ⊢
        omega
      rwa [zpow_add₀ (by norm_num)] at reach
    have below := mul_two_zpow_lt short fine
    have nearer := grid (2 ^ 52)
    rw [Int.cast_pow, Int.cast_ofNat] at nearer
    rw [abs_of_nonpos (by linarith : (2 ^ 52 * 2 ^ target v : ℚ) - v ≤ 0)] at nearer
    rw [abs_of_nonpos (by linarith : (m * 2 ^ e : ℚ) - v ≤ 0)]
    linarith
  · obtain ⟨d, rfl⟩ := Int.le.dest coarse
    have multiple := grid (m * 2 ^ d : Nat)
    rw [zpow_add₀ (by norm_num), zpow_natCast, mul_comm ((2 : ℚ) ^ target v), ← mul_assoc]
    exact_mod_cast multiple

/-! ## Integers as floats -/

theorem representable_zero : Representable 0 := ⟨0, 0, by decide, by decide, by simp⟩

theorem Representable.neg {q : ℚ} (representable : Representable q) : Representable (-q) := by
  rwa [Representable, abs_neg]

theorem representable_of_small {n : ℤ} (small : n.natAbs ≤ 2 ^ 53) : Representable n := by
  have value : |(n : ℚ)| = n.natAbs := by rw [Nat.cast_natAbs, Int.cast_abs]
  rw [Representable, value]
  rcases Nat.lt_or_eq_of_le small with short | carry
  · exact ⟨n.natAbs, 0, short, by decide, by simp⟩
  · refine ⟨2 ^ 52, 1, by decide, by decide, ?_⟩
    rw [carry]
    norm_num

/-- A number is an infinity, or a rational number that floats have room for. -/
theorem IsNumber.denoted_cases {u : UnpackedFloat} (number : IsNumber u) :
    denoted u = ⊥ ∨ denoted u = ⊤ ∨ ∃ q, denoted u = .ofRat q ∧ Representable q := by
  cases number with
  | infinity s =>
    cases s with
    | negative => exact Or.inl rfl
    | positive => exact Or.inr (Or.inl rfl)
  | zero s => exact Or.inr (Or.inr ⟨0, rfl, representable_zero⟩)
  | @finite s m e legal =>
    have magnitude : Representable (m * 2 ^ e) :=
      ⟨m, e, legal.short, legal.least, abs_of_pos legal.value_pos⟩
    cases s with
    | negative => exact Or.inr (Or.inr ⟨_, rfl, magnitude.neg⟩)
    | positive => exact Or.inr (Or.inr ⟨_, rfl, magnitude⟩)

/-- The float denotes `r`, and no number that floats have room for is nearer to `v`. -/
structure Approximates (x : Float) (v r : ℚ) : Prop where
  number : x.isNaN = false
  exact : exactFloat x = .ofRat r
  nearest : ∀ q, Representable q → |r - v| ≤ |q - v|

namespace Approximates

variable {x : Float} {v : ℚ} {m k : Nat} {e : ℤ}

theorem zero : Approximates (Float.ofNat 0) 0 0 :=
  have number : (Float.ofNat 0).isNaN = false := rfl
  ⟨number, exactFloat_eq number, fun q _ => by simp⟩

theorem of_parts {s : Sign} {pos : 0 < m} {r : ℚ} (found : parts x = .finite s m e pos)
    (value : denoted (.finite s m e pos) = .ofRat r)
    (near : ∀ q, Representable q → |r - v| ≤ |q - v|) : Approximates x v r := by
  have number : x.isNaN = false := by
    show (parts x).isNaN = false
    rw [found]
    rfl
  exact ⟨number, by rw [exactFloat_eq number, found, value], near⟩

theorem of_parts_neg {pos : 0 < m} (found : parts x = .finite .positive m e pos)
    (near : ∀ q, Representable q → |(m * 2 ^ e : ℚ) - v| ≤ |q - v|) :
    Approximates (-x) (-v) (-(m * 2 ^ e)) := by
  have flip : ∀ a : ℚ, |-a - -v| = |a - v| := fun a => by rw [← neg_sub', abs_neg]
  refine of_parts (by rw [parts_neg, found]; rfl) rfl ?_
  intro q representable
  have mirrored := near (-q) representable.neg
  rwa [flip, ← neg_neg q, flip]

/-- Zero is nearer to a number than what is more than twice the number. -/
theorem exponent_le (pos : 0 < m) (small : k ≤ 2 ^ 63)
    (near : |(m * 2 ^ e : ℚ) - k| ≤ |(0 : ℚ) - k|) : e ≤ 64 := by
  have bound : (k : ℚ) ≤ 2 ^ 63 := by exact_mod_cast small
  have mantissa : (1 : ℚ) ≤ m := by exact_mod_cast pos
  have power := le_mul_of_one_le_left (two_zpow_pos e).le mantissa
  have double : (2 : ℚ) ^ (64 : ℤ) = 2 ^ 63 + 2 ^ 63 := by norm_num
  rw [zero_sub, abs_neg, abs_of_nonneg (Nat.cast_nonneg k : (0 : ℚ) ≤ k)] at near
  have far := (abs_le.1 near).2
  have reach : (2 : ℚ) ^ e ≤ 2 ^ (64 : ℤ) := by
    rw [double]
    linarith
  exact (zpow_le_zpow_iff_right₀ (by norm_num)).1 reach

/-- A positive number that is small enough has no nearer float than the one it becomes. -/
theorem ofNat (pos : 0 < k) (small : k ≤ 2 ^ 63) :
    ∃ m e above, parts (Float.ofNat k) = .finite .positive m e above ∧
      ∀ q, Representable q → |(m * 2 ^ e : ℚ) - k| ≤ |q - k| := by
  have positive : (0 : ℚ) < k := by exact_mod_cast pos
  have near {q : ℚ} := abs_nearest_sub_le (q := q) positive .positive
  have rounded : Float.ofNat k = ofParts (CellFormula.nearest .positive k) := by
    have scientific := ofScientific_eq (e := 0) pos (by omega) (by decide)
    rw [zpow_zero, mul_one] at scientific
    exact scientific
  obtain ⟨em, -, ⟨zero, -⟩ | ⟨m, e, above, finite, short, reached, full, -⟩⟩ :=
    nearest_cases positive .positive
  · -- one is nearer than zero
    have one := near (representable_of_small (n := 1) (by decide))
    have least : (1 : ℚ) ≤ k := by exact_mod_cast pos
    rw [zero, magnitude, abs_sub_comm, sub_zero, abs_of_pos positive, Int.cast_one,
      abs_of_nonpos (by linarith)] at one
    linarith
  · rw [finite, magnitude] at near
    have least : -1074 ≤ e := (le_max_right _ _).trans reached
    have most := exponent_le above small (near representable_zero)
    have legal : Legal m e := ⟨above, short, least, by omega, full⟩
    refine ⟨m, e, above, ?_, fun q => near⟩
    rw [rounded, finite]
    exact parts_ofParts_finite legal

end Approximates

/-- No float is nearer to an integer than the one it is converted to. -/
theorem approximates_toFloat (n : Integer) : ∃ r, Approximates (toFloat n) n.toInt r := by
  have least : -2 ^ 63 ≤ n.toInt := n.minValue_le_toInt
  have most : n.toInt ≤ 2 ^ 63 - 1 := n.toInt_le
  rw [toFloat]
  cases found : n.toInt with
  | ofNat k =>
    rw [found, Int.ofNat_eq_natCast] at most
    rcases Nat.eq_zero_or_pos k with rfl | pos
    · exact ⟨0, .zero⟩
    · obtain ⟨m, e, above, finite, near⟩ := Approximates.ofNat pos (by omega)
      exact ⟨m * 2 ^ e, .of_parts finite rfl near⟩
  | negSucc k =>
    rw [found] at least
    obtain ⟨m, e, above, finite, near⟩ := Approximates.ofNat (Nat.succ_pos k) (by omega)
    rw [Int.cast_negSucc]
    exact ⟨-(m * 2 ^ e), .of_parts_neg finite near⟩

theorem isNaN_toFloat (n : Integer) : (toFloat n).isNaN = false := by
  obtain ⟨r, approximates⟩ := approximates_toFloat n
  exact approximates.number

/-! ## Conversion keeps the order -/

section

variable {a b v : ℚ}

theorem add_le_of_abs_le (less : a < b) (near : |b - v| ≤ |a - v|) : a + b ≤ 2 * v := by
  rcases abs_cases (b - v) with ⟨first, _⟩ | ⟨first, _⟩ <;>
    rcases abs_cases (a - v) with ⟨second, _⟩ | ⟨second, _⟩ <;>
    rw [first, second] at near <;> linarith

theorem le_add_of_abs_le (less : a < b) (near : |a - v| ≤ |b - v|) : 2 * v ≤ a + b := by
  rcases abs_cases (a - v) with ⟨first, _⟩ | ⟨first, _⟩ <;>
    rcases abs_cases (b - v) with ⟨second, _⟩ | ⟨second, _⟩ <;>
    rw [first, second] at near <;> linarith

end

section

variable {m n : Integer} {x : Float}

theorem exactFloat_cases (number : x.isNaN = false) :
    exactFloat x = ⊥ ∨ exactFloat x = ⊤ ∨ ∃ q, exactFloat x = .ofRat q ∧ Representable q := by
  rw [exactFloat_eq number]
  exact (isNumber_parts number).denoted_cases

theorem Approximates.representable {v r : ℚ} (approximates : Approximates x v r) :
    Representable r := by
  rcases exactFloat_cases approximates.number with bot | top | ⟨q, rational, representable⟩
  · exact absurd (approximates.exact.symm.trans bot) (Extended.bot_lt_ofRat r).ne'
  · exact absurd (approximates.exact.symm.trans top) (Extended.ofRat_lt_top r).ne
  · rwa [Extended.ofRat_inj.1 (approximates.exact.symm.trans rational)]

/-- Greater integers do not become smaller floats. -/
theorem toFloat_mono (le : m.toInt ≤ n.toInt) :
    exactFloat (toFloat m) ≤ exactFloat (toFloat n) := by
  obtain ⟨a, first⟩ := approximates_toFloat m
  obtain ⟨b, second⟩ := approximates_toFloat n
  rw [first.exact, second.exact, Extended.ofRat_le_iff]
  refine not_lt.1 fun less => ?_
  -- else both integers were in the middle between the two floats
  have above := add_le_of_abs_le less (first.nearest b second.representable)
  have below := le_add_of_abs_le less (second.nearest a first.representable)
  have same : m.toInt = n.toInt := by
    have : (n.toInt : ℚ) ≤ m.toInt := by linarith
    exact le.antisymm (by exact_mod_cast this)
  have rounded : Extended.ofRat a = .ofRat b := by
    rw [← first.exact, ← second.exact, Int64.toInt_inj.1 same]
  exact less.ne' (Extended.ofRat_inj.1 rounded)

/-- An integer that is not above a float is not rounded to one above it. -/
theorem toFloat_le (number : x.isNaN = false) (le : .ofRat n.toInt ≤ exactFloat x) :
    exactFloat (toFloat n) ≤ exactFloat x := by
  obtain ⟨r, rounded⟩ := approximates_toFloat n
  rw [rounded.exact]
  rcases exactFloat_cases number with bot | top | ⟨q, rational, representable⟩
  · rw [bot] at le
    exact absurd (Extended.bot_lt_ofRat _) le.not_gt
  · rw [top]
    exact le_top
  · rw [rational, Extended.ofRat_le_iff] at le ⊢
    refine not_lt.1 fun less => ?_
    have above := add_le_of_abs_le less (rounded.nearest q representable)
    linarith

/-- An integer that is not below a float is not rounded to one below it. -/
theorem le_toFloat (number : x.isNaN = false) (le : exactFloat x ≤ .ofRat n.toInt) :
    exactFloat x ≤ exactFloat (toFloat n) := by
  obtain ⟨r, rounded⟩ := approximates_toFloat n
  rw [rounded.exact]
  rcases exactFloat_cases number with bot | top | ⟨q, rational, representable⟩
  · rw [bot]
    exact bot_le
  · rw [top] at le
    exact absurd (Extended.ofRat_lt_top _) le.not_gt
  · rw [rational, Extended.ofRat_le_iff] at le ⊢
    refine not_lt.1 fun less => ?_
    have below := le_add_of_abs_le less (rounded.nearest q representable)
    linarith

/-- An integer of at most 53 binary digits is not changed. -/
theorem exactFloat_toFloat_of_small (small : n.toInt.natAbs ≤ 2 ^ 53) :
    exactFloat (toFloat n) = .ofRat n.toInt := by
  obtain ⟨r, rounded⟩ := approximates_toFloat n
  have near := rounded.nearest n.toInt (representable_of_small small)
  rw [sub_self, abs_zero, abs_nonpos_iff, sub_eq_zero] at near
  rw [rounded.exact, near]

end

end CellFormula
