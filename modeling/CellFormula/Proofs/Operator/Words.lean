import CellFormula.Proofs.Operator.Exact
import CellFormula.Proofs.Range

/-!
# Operations on words

How the operations on integers are carried out on words of 64 bits, where division rounds towards
zero, shifts drop bits and every step has its own range. `BinaryOp.onWords` follows these steps and
breaks off at one that leaves its range without notice.

Main statements: `BinaryOp.onWords_eq`, no step ever does, and the outcome is that of the operation;
`BinaryOp.apply_integers_spec`, what the operators make of two integers.
-/

namespace CellFormula

/-- A computation on words: its outcome, or none if a step left its range without notice. -/
abbrev OnWords := Option (Except FormulaError Integer)

namespace OnWords

/-! ## Steps -/

/-- A step whose result is taken to be an integer. -/
def step (n : Int) : OnWords := (Integer.ofInt? n).map .ok

/-- The remainder of a division that rounds towards zero. There is none unless there is a
quotient. -/
def rem? (l r : Integer) : Option Integer :=
  if r.toInt ≠ 0 ∧ Integer.Fits (l.toInt.tdiv r.toInt) then some (l % r) else none

/-- Moves the bits of a word up, and those at the top out of it. -/
def moveUp? (n amount : Integer) : Option Integer :=
  if 0 ≤ amount.toInt ∧ amount.toInt < 64 then some (n <<< amount) else none

/-- Moves the bits of a word down, and copies of the sign in. -/
def moveDown? (n amount : Integer) : Option Integer :=
  if 0 ≤ amount.toInt ∧ amount.toInt < 64 then some (n >>> amount) else none

/-! ## Computations -/

/-- The quotient rounded down: one less than the one rounded towards zero, if that was rounded
up. -/
def floorDiv (l r : Integer) : OnWords :=
  if r = 0 then some (.error (.divisionByZero (.operands l .divide r)))
  else
    match fit l .divide r (l.toInt.tdiv r.toInt) with
    | .error cause => some (.error cause)
    | .ok quotient => do
      let rest ← rem? l r
      if rest ≠ 0 ∧ (l < 0 ↔ ¬ r < 0) then step (quotient.toInt - 1)
      else some (.ok quotient)

/-- The remainder with the sign of the divisor. -/
def floorMod (l r : Integer) : OnWords :=
  if r = 0 then some (.error (.divisionByZero (.operands l .modulo r)))
  else
    let rest := l % r
    if rest ≠ 0 ∧ (rest < 0 ↔ ¬ r < 0) then step (rest.toInt + r.toInt)
    else some (.ok rest)

/-- A power. The exponent of a base other than -1, 0 and 1 must fit 32 bits. -/
def power (base exponent : Integer) : OnWords :=
  if exponent < 0 then some (.error (.operand (.negativeExponent base exponent)))
  else if base = 0 then some (.ok (if exponent = 0 then 1 else 0))
  else if base = 1 then some (.ok 1)
  else if base = -1 then some (.ok (if exponent % 2 = 0 then 1 else -1))
  else if exponent.toInt < 2 ^ 32 then
    some (fit base .exponent exponent (base.toInt ^ exponent.toInt.toNat))
  else some (.error (.overflow (.operands base .exponent exponent)))

/-- Shifts to the left, and back to see whether a bit was lost. -/
def shiftUp (n amount : Integer) : OnWords :=
  if n = 0 then some (.ok 0)
  else if 64 ≤ amount then some (.error (.overflow (.operands n .shiftLeft amount)))
  else do
    let shifted ← moveUp? n amount
    let back ← moveDown? shifted amount
    if back ≠ n then some (.error (.overflow (.operands n .shiftLeft amount)))
    else some (.ok shifted)

def shiftDown (n amount : Integer) : OnWords := (moveDown? n (min amount 63)).map .ok

/-- The opposite amount, or the greatest integer in place of the one that is missing. -/
def reversed (amount : Integer) : Integer :=
  if amount = Int64.minValue then Int64.maxValue else -amount

end OnWords

/-- The operation on words. An operator that does not compute integers from integers has none. -/
def BinaryOp.onWords (op : BinaryOp) (l r : Integer) : OnWords :=
  match op with
  | add => some (fit l op r (l.toInt + r.toInt))
  | subtract => some (fit l op r (l.toInt - r.toInt))
  | multiply => some (fit l op r (l.toInt * r.toInt))
  | divide => OnWords.floorDiv l r
  | modulo => OnWords.floorMod l r
  | exponent => OnWords.power l r
  | bitAnd => some (.ok (l &&& r))
  | bitOr => some (.ok (l ||| r))
  | bitXor => some (.ok (l ^^^ r))
  | shiftLeft => if r < 0 then OnWords.shiftDown l (OnWords.reversed r) else OnWords.shiftUp l r
  | shiftRight => if r < 0 then OnWords.shiftUp l (OnWords.reversed r) else OnWords.shiftDown l r
  | _ => none

/-- The operators that compute integers from integers. -/
def BinaryOp.numeric : List BinaryOp :=
  [add, subtract, multiply, divide, modulo, exponent, bitAnd, bitOr, bitXor, shiftLeft, shiftRight]

/-! ## Division -/

namespace Integer

/-- A quotient rounded towards zero was rounded up if there is a remainder and the signs differ. -/
theorem fdiv_eq_tdiv_sub {l r : Int} (nonzero : r ≠ 0) :
    l.fdiv r = if l.tmod r ≠ 0 ∧ (l < 0 ↔ ¬ r < 0) then l.tdiv r - 1 else l.tdiv r := by
  have divides : r ∣ l ↔ l.tmod r = 0 := Int.dvd_iff_tmod_eq_zero
  rw [Int.fdiv_eq_tdiv]
  rcases Int.lt_or_gt_of_ne nonzero with negative | positive
  · rw [Int.sign_eq_neg_one_iff_neg.2 negative]
    grind
  · rw [Int.sign_eq_one_iff_pos.2 positive]
    grind

/-- A remainder left by rounding towards zero has the sign of the dividend. -/
theorem tmod_sign (l r : Int) : (0 ≤ l → 0 ≤ l.tmod r) ∧ (l < 0 → l.tmod r ≤ 0) := by
  refine ⟨Int.tmod_nonneg r, fun negative => ?_⟩
  have opposite := Int.tmod_nonneg (a := -l) r (by omega)
  rw [Int.neg_tmod] at opposite
  omega

theorem fmod_eq_tmod_add (l r : Int) : l.fmod r =
      if l.tmod r ≠ 0 ∧ (l.tmod r < 0 ↔ ¬ r < 0) then l.tmod r + r else l.tmod r := by
  have divides : r ∣ l ↔ l.tmod r = 0 := Int.dvd_iff_tmod_eq_zero
  have sign := tmod_sign l r
  rw [Int.fmod_eq_tmod]
  grind

/-- A quotient that leaves a remainder is at most half of the dividend. -/
theorem two_mul_natAbs_tdiv_le {l r : Int} (rest : l.tmod r ≠ 0) :
    2 * (l.tdiv r).natAbs ≤ l.natAbs := by
  have remainder : l.natAbs % r.natAbs ≠ 0 := by
    rw [← Int.natAbs_tmod]
    exact Int.natAbs_ne_zero.2 rest
  have least : r.natAbs ≠ 1 := by
    intro one
    rw [one, Nat.mod_one] at remainder
    exact remainder rfl
  rcases Nat.eq_zero_or_pos r.natAbs with zero | positive
  · rw [Int.natAbs_eq_zero.1 zero, Int.tdiv_zero]
    exact Nat.zero_le _
  · have two : 2 ≤ r.natAbs := by omega
    have half : l.natAbs / r.natAbs ≤ l.natAbs / 2 := Nat.div_le_div_left two (by decide)
    have quotient : (l.tdiv r).natAbs = l.natAbs / r.natAbs := Int.natAbs_tdiv l r
    omega

variable {l r n amount : Integer}

theorem toInt_eq_zero_iff : r.toInt = 0 ↔ r = 0 := by
  rw [← Int64.toInt_inj, Int64.toInt_zero]

theorem toInt_neg_iff : r.toInt < 0 ↔ r < 0 := by
  rw [Int64.lt_iff_toInt_lt, Int64.toInt_zero]

/-- A quotient rounded down fits exactly if the one rounded towards zero does. -/
theorem fits_fdiv_iff (nonzero : r.toInt ≠ 0) :
    Fits (l.toInt.fdiv r.toInt) ↔ Fits (l.toInt.tdiv r.toInt) := by
  by_cases rest : l.toInt.tmod r.toInt = 0
  · rw [fdiv_eq_tdiv_sub nonzero, if_neg fun both => both.1 rest]
  · have small := two_mul_natAbs_tdiv_le rest
    have bounds := fits_iff.1 (fits_toInt l)
    have down := fdiv_eq_tdiv_sub (l := l.toInt) nonzero
    refine iff_of_true ?_ ?_ <;> rw [fits_iff] <;> split at down <;> omega

end Integer

namespace OnWords

open Integer

variable {l r n amount : Integer}

theorem step_of_toInt {m : Int} {i : Integer} (same : i.toInt = m) : step m = some (.ok i) := by
  rw [step, ofInt?_eq_some_iff.2 same]
  rfl

theorem floorDiv_eq (l r : Integer) : floorDiv l r = some (CellFormula.floorDiv l r) := by
  rw [floorDiv, CellFormula.floorDiv]
  by_cases zero : r = 0
  · rw [if_pos zero, if_pos (toInt_eq_zero_iff.2 zero)]
  · have nonzero : r.toInt ≠ 0 := mt toInt_eq_zero_iff.1 zero
    rw [if_neg zero, if_neg nonzero]
    by_cases fits : Fits (l.toInt.tdiv r.toInt)
    · obtain ⟨quotient, same⟩ := exists_toInt_eq fits
      obtain ⟨down, floor⟩ := exists_toInt_eq ((fits_fdiv_iff nonzero).2 fits)
      rw [fit_of_toInt same, fit_of_toInt floor, rem?, if_pos ⟨nonzero, fits⟩]
      rw [fdiv_eq_tdiv_sub nonzero] at floor
      simp only [Option.bind_eq_bind, Option.bind_some, ne_eq, ← toInt_eq_zero_iff, ← toInt_neg_iff,
        Int64.toInt_mod]
      split
      · next up =>
        rw [if_pos up] at floor
        exact step_of_toInt (by omega)
      · next exact =>
        rw [if_neg exact] at floor
        rw [Int64.toInt_inj.1 (floor.trans same.symm)]
    · rw [fit_of_not_fits fits, fit_of_not_fits (mt (fits_fdiv_iff nonzero).1 fits)]

theorem floorMod_eq (l r : Integer) : floorMod l r = some (CellFormula.floorMod l r) := by
  rw [floorMod, CellFormula.floorMod]
  by_cases zero : r = 0
  · rw [if_pos zero, if_pos (toInt_eq_zero_iff.2 zero)]
  · have nonzero : r.toInt ≠ 0 := mt toInt_eq_zero_iff.1 zero
    obtain ⟨floor, same⟩ := exists_toInt_eq (fits_fmod (l := l) nonzero)
    rw [if_neg zero, if_neg nonzero, fit_of_toInt same]
    rw [fmod_eq_tmod_add] at same
    simp only [ne_eq, ← toInt_eq_zero_iff, ← toInt_neg_iff, Int64.toInt_mod]
    split
    · next other =>
      rw [if_pos other] at same
      exact step_of_toInt same
    · next exact =>
      rw [if_neg exact] at same
      rw [Int64.toInt_inj.1 (same.trans (Int64.toInt_mod l r).symm)]

/-! ## Powers -/

theorem power_eq (base exponent : Integer) :
    power base exponent = some (CellFormula.power base exponent) := by
  simp only [power, CellFormula.power, Int.pow_eq, toInt_neg_iff]
  split
  · rfl
  · next nonneg =>
    obtain ⟨k, same⟩ := Int.eq_ofNat_of_zero_le (Int.not_lt.1 (mt toInt_neg_iff.1 nonneg))
    have zero : exponent = 0 ↔ k = 0 := by
      rw [← toInt_eq_zero_iff, same]
      omega
    have even : exponent % 2 = 0 ↔ k % 2 = 0 := by
      have two : (2 : Integer).toInt = 2 := rfl
      rw [← toInt_eq_zero_iff, Int64.toInt_mod, two, same,
        Int.tmod_eq_emod_of_nonneg (Int.natCast_nonneg k)]
      omega
    rw [same, Int.toNat_natCast]
    by_cases small : base.toInt.natAbs ≤ 1
    · rw [if_pos small, pow_of_small small]
      obtain rfl | rfl | rfl : base = 0 ∨ base = 1 ∨ base = -1 := by
        have one : (1 : Integer).toInt = 1 := rfl
        have minus : (-1 : Integer).toInt = -1 := rfl
        simp only [← Int64.toInt_inj, Int64.toInt_zero, one, minus]
        omega
      · rw [if_pos rfl, fit_of_toInt]
        split
        · next none => rw [zero.1 none, pow_zero]; rfl
        · next some => exact (zero_pow (mt zero.2 some)).symm
      · rw [if_neg (by decide), if_pos rfl, fit_of_toInt]
        exact (one_pow k).symm
      · rw [if_neg (by decide), if_neg (by decide), if_pos rfl, fit_of_toInt]
        split
        · next twice => exact (Even.neg_one_pow (Nat.even_iff.2 (even.1 twice))).symm
        · next once =>
          have odd : k % 2 = 1 := Nat.mod_two_ne_zero.1 (mt even.2 once)
          exact (Odd.neg_one_pow (Nat.odd_iff.2 odd)).symm
    · have large : 1 < base.toInt.natAbs := Nat.not_le.1 small
      have noZero : base ≠ 0 := by rintro rfl; exact small (by decide)
      have noOne : base ≠ 1 := by rintro rfl; exact small (by decide)
      have noMinusOne : base ≠ -1 := by rintro rfl; exact small (by decide)
      rw [if_neg small, if_neg noZero, if_neg noOne, if_neg noMinusOne]
      by_cases many : 64 ≤ k
      · rw [if_pos many, fit_of_not_fits (not_fits_pow large many), ite_self]
      · rw [if_neg many, if_pos (by omega)]

/-! ## Shifts -/

theorem toNat_place (nonneg : 0 ≤ amount.toInt) (small : amount.toInt < 64) :
    (amount.toBitVec.smod 64).toNat = amount.toInt.toNat := by
  have place : (amount.toBitVec.smod 64).toInt = amount.toInt := by
    have width : (64 : BitVec 64).toInt = 64 := rfl
    rw [BitVec.toInt_smod, width, Int64.toInt_toBitVec, Int.fmod_eq_emod_of_nonneg _ (by decide),
      Int.emod_eq_of_lt nonneg small]
  have word := (amount.toBitVec.smod 64).isLt
  rw [BitVec.toInt_eq_toNat_cond] at place
  split at place <;> omega

theorem toInt_shiftLeft (nonneg : 0 ≤ amount.toInt) (small : amount.toInt < 64) :
    (n <<< amount).toInt = (n.toInt * 2 ^ amount.toInt.toNat).bmod (2 ^ 64) := by
  rw [← Int64.toInt_toBitVec, Int64.toBitVec_shiftLeft, BitVec.shiftLeft_eq',
    toNat_place nonneg small, BitVec.toInt_shiftLeft, ← Int64.toInt_toBitVec n,
    BitVec.toInt_eq_toNat_bmod, Int.bmod_mul_bmod, Nat.shiftLeft_eq]
  push_cast
  rfl

theorem toInt_shiftRight (nonneg : 0 ≤ amount.toInt) (small : amount.toInt < 64) :
    (n >>> amount).toInt = n.toInt / 2 ^ amount.toInt.toNat := by
  rw [← Int64.toInt_toBitVec, Int64.toBitVec_shiftRight, BitVec.sshiftRight',
    toNat_place nonneg small, BitVec.toInt_sshiftRight, Int.shiftRight_eq_div_pow,
    Int64.toInt_toBitVec]
  push_cast
  rfl

theorem toInt_shiftLeft_of_fits (nonneg : 0 ≤ amount.toInt) (small : amount.toInt < 64)
    (fits : Fits (n.toInt * 2 ^ amount.toInt.toNat)) :
    (n <<< amount).toInt = n.toInt * 2 ^ amount.toInt.toNat := by
  rw [fits_iff] at fits
  rw [toInt_shiftLeft nonneg small, Int.bmod_eq_of_le] <;> omega

/-- Bits come back from a shift to the left exactly if none of them was lost. -/
theorem back_eq_iff (nonneg : 0 ≤ amount.toInt) (small : amount.toInt < 64) :
    n <<< amount >>> amount = n ↔ Fits (n.toInt * 2 ^ amount.toInt.toNat) := by
  have positive : (0 : Int) < 2 ^ amount.toInt.toNat := Int.pow_pos (by decide)
  have down := toInt_shiftRight (n := n <<< amount) nonneg small
  constructor
  · intro back
    -- the shifted word differs by a multiple of 2 ^ 64, but by less than the divisor
    have few : (2 : Int) ^ amount.toInt.toNat ≤ 2 ^ 63 := pow_le_pow_right₀ (by decide) (by omega)
    have wrapped : (2 ^ 64 : Int) ∣ (n <<< amount).toInt - n.toInt * 2 ^ amount.toInt.toNat := by
      rw [toInt_shiftLeft nonneg small]
      exact Int.dvd_bmod_sub_self
    have low := Int.ediv_mul_le (n <<< amount).toInt positive.ne'
    have high := Int.lt_ediv_add_one_mul_self (n <<< amount).toInt positive
    rw [← down, back] at low high
    rw [Int.add_mul, Int.one_mul] at high
    obtain same : (n <<< amount).toInt = n.toInt * 2 ^ amount.toInt.toNat := by omega
    rw [← same]
    exact fits_toInt _
  · intro fits
    rw [← Int64.toInt_inj, down, toInt_shiftLeft_of_fits nonneg small fits,
      Int.mul_ediv_cancel _ positive.ne']

theorem shiftUp_eq (nonneg : 0 ≤ amount.toInt) :
    shiftUp n amount = some (CellFormula.shiftUp n amount) := by
  have width : (64 : Integer).toInt = 64 := rfl
  simp only [shiftUp, CellFormula.shiftUp, toInt_eq_zero_iff, Int64.le_iff_toInt_le, width]
  split
  · rfl
  · split
    · rfl
    · next small =>
      have small : amount.toInt < 64 := Int.not_le.1 small
      simp only [moveUp?, moveDown?, nonneg, small, and_self, if_true, Option.bind_eq_bind,
        Option.bind_some, Int.shiftLeft_eq, ne_eq, back_eq_iff]
      split
      · next lost => rw [fit_of_not_fits lost]
      · next kept => rw [fit_of_toInt (toInt_shiftLeft_of_fits nonneg small (not_not.1 kept))]

theorem shiftDown_eq (nonneg : 0 ≤ amount.toInt) :
    shiftDown n amount = some (CellFormula.shiftDown n amount) := by
  have most : (63 : Integer).toInt = 63 := rfl
  have place : (min amount 63).toInt = min amount.toInt 63 := by rw [toInt_min, most]
  have nonneg' : 0 ≤ (min amount 63).toInt := by omega
  have small : (min amount 63).toInt < 64 := by omega
  have same : min 63 amount.toInt.toNat = (min amount 63).toInt.toNat := by omega
  rw [shiftDown, CellFormula.shiftDown, moveDown?, if_pos ⟨nonneg', small⟩, same,
    Int.shiftRight_eq_div_pow, fit_of_toInt]
  · rfl
  · rw [toInt_shiftRight nonneg' small]
    push_cast
    rfl

theorem reversed_eq (amount : Integer) : reversed amount = CellFormula.reversed amount := by
  rw [reversed, CellFormula.reversed]
  split
  · next least =>
    rw [least]
    rfl
  · next other =>
    have bounds := fits_iff.1 (fits_toInt amount)
    have above : amount.toInt ≠ Int64.minValue.toInt := mt Int64.toInt_inj.1 other
    rw [Int64.toInt_minValue] at above
    have opposite : (-amount).toInt = -amount.toInt := by
      rw [Int64.toInt_neg, Int.bmod_eq_of_le] <;> omega
    rw [ofInt?_eq_some_iff.2 opposite, Option.getD_some]

end OnWords

/-! ## Operators -/

namespace BinaryOp

variable {op : BinaryOp} {l r : Integer} {n : Int}

/-- On words, no step leaves its range without notice, and the outcome is that of the operator. -/
theorem onWords_eq (computes : op ∈ numeric) (l r : Integer) :
    (op.onWords l r).map (·.map Value.integer) = some (op.apply (.integer l) (.integer r)) := by
  have turned : ∀ {amount : Integer}, amount < 0 → 0 ≤ (CellFormula.reversed amount).toInt := by
    intro amount negative
    have := toInt_reversed (Integer.toInt_neg_iff.2 negative)
    have := Integer.toInt_neg_iff.2 negative
    omega
  have forward : ∀ {amount : Integer}, ¬ amount < 0 → 0 ≤ amount.toInt := fun nonneg =>
    Int.not_lt.1 (mt Integer.toInt_neg_iff.1 nonneg)
  cases op with
  | add | subtract | multiply | bitAnd | bitOr | bitXor => rfl
  | divide => rw [onWords, OnWords.floorDiv_eq]; rfl
  | modulo => rw [onWords, OnWords.floorMod_eq]; rfl
  | exponent => rw [onWords, OnWords.power_eq]; rfl
  | shiftLeft =>
    show _ = some ((CellFormula.shiftLeft l r).map Value.integer)
    simp only [onWords, CellFormula.shiftLeft, Integer.toInt_neg_iff, OnWords.reversed_eq]
    split
    · next negative => rw [OnWords.shiftDown_eq (turned negative)]; rfl
    · next nonneg => rw [OnWords.shiftUp_eq (forward nonneg)]; rfl
  | shiftRight =>
    show _ = some ((CellFormula.shiftRight l r).map Value.integer)
    simp only [onWords, CellFormula.shiftRight, Integer.toInt_neg_iff, OnWords.reversed_eq]
    split
    · next negative => rw [OnWords.shiftUp_eq (turned negative)]; rfl
    · next nonneg => rw [OnWords.shiftDown_eq (forward nonneg)]; rfl
  | _ => exact absurd computes (by decide)

/-- At two integers the operator has the value `n`, or overflows if that does not fit. -/
def Gives (op : BinaryOp) (l r : Integer) (n : Int) : Prop :=
  (∀ i : Integer, i.toInt = n → op.apply (.integer l) (.integer r) = .ok (.integer i)) ∧
    (¬ Integer.Fits n → ∃ cause, op.apply (.integer l) (.integer r) = .error (.overflow cause))

/-- At two integers the operator has the value whose bits, in two's complement, `f` makes of the
bits of the two at the same place. -/
def CombinesBits (op : BinaryOp) (f : Bool → Bool → Bool) (l r : Integer) : Prop :=
  ∃ i : Integer, op.apply (.integer l) (.integer r) = .ok (.integer i) ∧
    ∀ k, i.toInt.testBit k = f (l.toInt.testBit k) (r.toInt.testBit k)

theorem gives_of_isExact {result : Except FormulaError Integer} (exact : IsExact result n)
    (same : op.apply (.integer l) (.integer r) = result.map Value.integer) : op.Gives l r n := by
  rw [Gives, same]
  refine ⟨fun i value => by rw [exact.1 i value]; rfl, fun unfit => ?_⟩
  obtain ⟨cause, overflows⟩ := exact.2 unfit
  exact ⟨cause, by rw [overflows]; rfl⟩

/-- At two integers every operator computes the exact function of numbers without bounds, and fails
exactly where that is not defined or its value does not fit. Quotients and shifts are rounded down,
a remainder always fits, and bits are combined in two's complement. The same outcomes are reached on
words of 64 bits, where no step leaves its range without notice. -/
theorem apply_integers_spec (l r : Integer) :
    add.Gives l r (l.toInt + r.toInt) ∧
    subtract.Gives l r (l.toInt - r.toInt) ∧
    multiply.Gives l r (l.toInt * r.toInt) ∧
    (r = 0 → ∀ op ∈ [divide, modulo],
      op.apply (.integer l) (.integer r) = .error (.divisionByZero (.operands l op r))) ∧
    (r ≠ 0 → divide.Gives l r ⌊(l.toInt : ℚ) / r.toInt⌋ ∧
      ∃ rest : Integer, modulo.apply (.integer l) (.integer r) = .ok (.integer rest) ∧
        rest.toInt = l.toInt - r.toInt * ⌊(l.toInt : ℚ) / r.toInt⌋) ∧
    (r < 0 → exponent.apply (.integer l) (.integer r) = .error (.operand (.negativeExponent l r))) ∧
    (0 ≤ r → exponent.Gives l r (l.toInt ^ r.toInt.toNat)) ∧
    shiftLeft.Gives l r ⌊(l.toInt : ℚ) * 2 ^ r.toInt⌋ ∧
    shiftRight.Gives l r ⌊(l.toInt : ℚ) * 2 ^ (-r.toInt)⌋ ∧
    bitAnd.CombinesBits Bool.and l r ∧
    bitOr.CombinesBits Bool.or l r ∧
    bitXor.CombinesBits Bool.xor l r ∧
    ∀ op ∈ numeric,
      (op.onWords l r).map (·.map Value.integer) = some (op.apply (.integer l) (.integer r)) := by
  refine ⟨gives_of_isExact isExact_fit rfl, gives_of_isExact isExact_fit rfl,
    gives_of_isExact isExact_fit rfl, ?_, ?_, ?_, ?_, gives_of_isExact isExact_shiftLeft rfl,
    gives_of_isExact isExact_shiftRight rfl, ⟨l &&& r, rfl, Integer.testBit_and l r⟩,
    ⟨l ||| r, rfl, Integer.testBit_or l r⟩, ⟨l ^^^ r, rfl, Integer.testBit_xor l r⟩,
    fun op computes => onWords_eq computes l r⟩
  · rintro rfl op division
    rcases List.mem_pair.1 division with rfl | rfl <;> rfl
  · intro other
    have nonzero : r.toInt ≠ 0 := mt Integer.toInt_eq_zero_iff.1 other
    obtain ⟨rest, computed, value⟩ := exists_floorMod (l := l) nonzero
    refine ⟨gives_of_isExact (isExact_floorDiv nonzero) rfl, rest, ?_, value⟩
    show (floorMod l r).map Value.integer = _
    rw [computed]
    rfl
  · intro negative
    show (power l r).map Value.integer = _
    simp only [power, if_pos (Integer.toInt_neg_iff.2 negative)]
    rfl
  · intro nonneg
    exact gives_of_isExact (isExact_power (Int64.le_iff_toInt_le.1 nonneg)) rfl

/-- The least integer, divided by -1, and as a power of -2. -/
theorem apply_integers_spec_least :
    ((-1 : Integer) ≠ 0 ∧
      (∃ cause, divide.apply (.integer Int64.minValue) (.integer (-1)) = .error (.overflow cause)) ∧
      modulo.apply (.integer Int64.minValue) (.integer (-1)) = .ok (.integer 0)) ∧
    ((0 : Integer) = 0 ∧ modulo.apply (.integer Int64.minValue) (.integer 0) =
      .error (.divisionByZero (.operands Int64.minValue .modulo 0))) ∧
    ((-1 : Integer) < 0 ∧ exponent.apply (.integer (-2)) (.integer (-1)) =
      .error (.operand (.negativeExponent (-2) (-1)))) ∧
    ((0 : Integer) ≤ 63 ∧
      exponent.apply (.integer (-2)) (.integer 63) = .ok (.integer Int64.minValue)) := by
  have nonzero : (-1 : Integer) ≠ 0 := by decide
  have negative : (-1 : Integer) < 0 := by decide
  have nonneg : (0 : Integer) ≤ 63 := by decide
  obtain ⟨quotient, rest, computed, value⟩ :=
    (apply_integers_spec Int64.minValue (-1)).2.2.2.2.1 nonzero
  rw [← Integer.fdiv_eq_floor] at quotient value
  refine ⟨⟨nonzero, quotient.2 (by decide), ?_⟩, ⟨rfl, ?_⟩, ⟨negative, ?_⟩, nonneg, ?_⟩
  · rw [computed, Int64.toInt_inj.1 (value.trans (by decide : _ = (0 : Integer).toInt))]
  · exact (apply_integers_spec Int64.minValue 0).2.2.2.1 rfl modulo (by decide)
  · exact (apply_integers_spec (-2) (-1)).2.2.2.2.2.1 negative
  · exact ((apply_integers_spec (-2) 63).2.2.2.2.2.2.1 nonneg).1 Int64.minValue (by decide)

end BinaryOp

end CellFormula
