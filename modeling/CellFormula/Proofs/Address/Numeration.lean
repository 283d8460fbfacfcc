import CellFormula.Proofs.Address.Column
import CellFormula.Proofs.Text.Run
import Mathlib.Data.List.Shortlex
import Mathlib.Data.String.Basic
import Mathlib.Tactic.Ring

/-!
# Columns in order

Column letters are the digits 1 to 26 of a numeration that has no zero. A run of letters stands for
more than every shorter run, and of two runs of one length the one that comes first in the alphabet
stands for less. So no two runs stand for the same column.

Main statements: `value_lt_value_iff`, runs of letters are ordered as their numbers are;
`lettersOfNat_value`, writing undoes reading; `letters_spec`, letters and columns correspond one to
one, up to the greatest integer.
-/

namespace CellFormula.Column

/-! ## The number of a run of letters -/

theorem valueFrom_eq (read : Nat) (letters : List Char) :
    valueFrom read letters = read * 26 ^ letters.length + value letters := by
  induction letters generalizing read with
  | nil => simp [value, valueFrom]
  | cons c letters ih =>
    rw [value, valueFrom_cons, valueFrom_cons, ih, ih (26 * 0 + _), List.length_cons, Nat.pow_succ]
    ring

/-- A letter counts as many times the power of 26 as there are letters behind it. -/
theorem value_cons (c : Char) (letters : List Char) :
    value (c :: letters) = letterValue c * 26 ^ letters.length + value letters := by
  rw [value, valueFrom_cons, valueFrom_eq, Nat.mul_zero, Nat.zero_add]

theorem letterValue_bounds {c : Char} (upper : c.isUpper = true) :
    1 ≤ letterValue c ∧ letterValue c ≤ 26 := by
  have bounds := toNat_of_isUpper upper
  have first : 'A'.toNat = 65 := rfl
  rw [letterValue, first]
  omega

theorem letterValue_lt_letterValue {c d : Char} (upper : c.isUpper = true) (less : c < d) :
    letterValue c < letterValue d := by
  have bounds := toNat_of_isUpper upper
  have codes : c.toNat < d.toNat := less
  have first : 'A'.toNat = 65 := rfl
  rw [letterValue, letterValue, first]
  omega

/-! ## The order of runs of letters -/

section Order

variable {s t letters : List Char}

/-- The runs of one length stand for the numbers from `A...A` up to `Z...Z`, which these bounds
give, 25 times. -/
theorem value_bounds (upper : ∀ c ∈ letters, c.isUpper = true) :
    26 ^ letters.length ≤ 25 * value letters + 1 ∧
      25 * value letters + 26 ≤ 26 ^ (letters.length + 1) := by
  induction letters with
  | nil => decide
  | cons c letters ih =>
    obtain ⟨first, others⟩ := List.forall_mem_cons.1 upper
    obtain ⟨low, high⟩ := ih others
    obtain ⟨least, most⟩ := letterValue_bounds first
    have atLeast := Nat.mul_le_mul_right (26 ^ letters.length) least
    have atMost := Nat.mul_le_mul_right (26 ^ letters.length) most
    rw [Nat.pow_succ] at high
    rw [value_cons, List.length_cons, Nat.pow_succ, Nat.pow_succ]
    omega

/-- A longer run stands for more. -/
theorem value_lt_of_length_lt (sUpper : ∀ c ∈ s, c.isUpper = true)
    (tUpper : ∀ c ∈ t, c.isUpper = true) (shorter : s.length < t.length) : value s < value t := by
  have most := (value_bounds sUpper).2
  have least := (value_bounds tUpper).1
  have powers : 26 ^ (s.length + 1) ≤ 26 ^ t.length := Nat.pow_le_pow_right (by decide) shorter
  omega

/-- Of two runs of one length, the one that comes later in the alphabet stands for more. -/
theorem value_lt_of_lex (sUpper : ∀ c ∈ s, c.isUpper = true) (tUpper : ∀ c ∈ t, c.isUpper = true)
    (same : s.length = t.length) (before : List.Lex (· < ·) s t) : value s < value t := by
  induction before with
  | nil => cases same
  | @cons c s t _ ih =>
    have tails : s.length = t.length := Nat.succ.inj same
    have less := ih (List.forall_mem_cons.1 sUpper).2 (List.forall_mem_cons.1 tUpper).2 tails
    rw [value_cons, value_cons, tails]
    omega
  | @rel c s d t less =>
    have tails : s.length = t.length := Nat.succ.inj same
    obtain ⟨upper, sUpper⟩ := List.forall_mem_cons.1 sUpper
    have most := (value_bounds sUpper).2
    have least := (value_bounds (List.forall_mem_cons.1 tUpper).2).1
    have step := Nat.mul_le_mul_right (26 ^ t.length) (letterValue_lt_letterValue upper less)
    rw [Nat.succ_mul] at step
    rw [tails, Nat.pow_succ] at most
    rw [value_cons, value_cons, tails]
    omega

theorem value_lt_of_shortlex (sUpper : ∀ c ∈ s, c.isUpper = true)
    (tUpper : ∀ c ∈ t, c.isUpper = true) (before : List.Shortlex (· < ·) s t) :
    value s < value t := by
  rcases List.shortlex_def.1 before with shorter | ⟨same, lex⟩
  · exact value_lt_of_length_lt sUpper tUpper shorter
  · exact value_lt_of_lex sUpper tUpper same lex

/-- Runs of letters are ordered as their numbers are: by length, and by the alphabet within one
length. -/
theorem value_lt_value_iff (sUpper : ∀ c ∈ s, c.isUpper = true)
    (tUpper : ∀ c ∈ t, c.isUpper = true) :
    value s < value t ↔ s.length < t.length ∨ s.length = t.length ∧ s < t := by
  refine Iff.trans ⟨fun less => ?_, value_lt_of_shortlex sUpper tUpper⟩ List.shortlex_def
  rcases trichotomous_of (List.Shortlex (· < ·)) s t with before | rfl | behind
  · exact before
  · exact absurd less (Nat.lt_irrefl _)
  · exact absurd less (Nat.lt_asymm (value_lt_of_shortlex tUpper sUpper behind))

/-- No two runs of letters stand for the same number. -/
theorem value_injective (sUpper : ∀ c ∈ s, c.isUpper = true) (tUpper : ∀ c ∈ t, c.isUpper = true)
    (same : value s = value t) : s = t := by
  rcases trichotomous_of (List.Shortlex (· < ·)) s t with before | equal | behind
  · exact absurd same (value_lt_of_shortlex sUpper tUpper before).ne
  · exact equal
  · exact absurd same (value_lt_of_shortlex tUpper sUpper behind).ne'

/-- Writing undoes reading. -/
theorem lettersOfNat_value (upper : ∀ c ∈ letters, c.isUpper = true) :
    lettersOfNat (value letters) = letters :=
  value_injective (fun _ => isUpper_of_mem_lettersOfNat) upper (value_lettersOfNat _)

end Order

/-! ## Columns -/

section

variable {column : Integer} {letters : List Char} {text : String}

/-- A run of letters is a column unless its number is too large. -/
theorem exists_read_eq_ok_iff :
    (∃ column, read letters = .ok column) ↔
      letters ≠ [] ∧ (∀ c ∈ letters, c.isUpper = true) ∧
        (value letters : Int) ≤ Int64.maxValue.toInt := by
  constructor
  · rintro ⟨column, found⟩
    obtain ⟨some, upper, number⟩ := read_eq_ok_iff.1 found
    exact ⟨some, upper, number ▸ (Integer.fits_toInt column).2⟩
  · rintro ⟨some, upper, bound⟩
    obtain ⟨column, number⟩ := Integer.exists_toInt_eq (Integer.toInt_nonneg_iff_fits.2 bound)
    exact ⟨column, read_eq_ok_iff.2 ⟨some, upper, number⟩⟩

theorem letters?_eq_some_iff :
    letters? column = some text ↔
      1 ≤ column.toInt ∧ text.toList = lettersOfNat column.toInt.toNat := by
  rw [letters?]
  split
  · next positive =>
    rw [Option.some.injEq, and_iff_right positive, ← String.toList_inj, String.toList_ofList]
    exact eq_comm
  · next low => exact iff_of_false nofun fun written => low written.1

/-- The letters of a column are what is read as that column, and nothing else. -/
theorem letters?_eq_some_iff_read :
    letters? column = some text ↔ read text.toList = .ok column := by
  rw [letters?_eq_some_iff, read_eq_ok_iff]
  constructor
  · rintro ⟨positive, written⟩
    rw [written]
    have number : value (lettersOfNat column.toInt.toNat) = column.toInt.toNat :=
      value_lettersOfNat _
    exact ⟨lettersOfNat_ne_nil (by omega), fun _ => isUpper_of_mem_lettersOfNat, by omega⟩
  · rintro ⟨some, upper, number⟩
    have nonzero : value text.toList ≠ 0 := fun zero => some (by
      rw [← lettersOfNat_value upper, zero, lettersOfNat, if_pos rfl])
    rw [number, Int.toNat_natCast, lettersOfNat_value upper]
    exact ⟨by omega, rfl⟩

/-- Columns and runs of capital letters correspond one to one, as far as integers reach. Every
column from one on has letters, which are read as that column. A text is read as a column exactly if
it is a run of capital letters whose number does not exceed the greatest integer; the column is that
number, and the text is its letters. Columns are ordered as their letters are: shorter ones come
first, and those of one length come in the order of the alphabet. -/
theorem letters_spec :
    (∀ column : Integer, 1 ≤ column.toInt → ∃ text, letters? column = some text ∧ text ≠ "" ∧
      (∀ c ∈ text.toList, c.isUpper = true) ∧ read text.toList = .ok column) ∧
    (∀ text : String, (∃ column, read text.toList = .ok column) ↔
      text ≠ "" ∧ (∀ c ∈ text.toList, c.isUpper = true) ∧
        (value text.toList : Int) ≤ Int64.maxValue.toInt) ∧
    (∀ (text : String) (column : Integer), read text.toList = .ok column →
      column.toInt = (value text.toList : Int) ∧ letters? column = some text) ∧
    ∀ (m n : Integer) (s t : String), letters? m = some s → letters? n = some t →
      (m < n ↔ s.length < t.length ∨ s.length = t.length ∧ s < t) := by
  have nonempty : ∀ text : String, text.toList ≠ [] ↔ text ≠ "" := fun text => by simp
  refine ⟨fun column positive => ?_, fun text => ?_, fun text column found => ?_, ?_⟩
  · have found := read_lettersOfNat positive
    obtain ⟨some, upper, _⟩ := read_eq_ok_iff.1 found
    refine ⟨String.ofList (lettersOfNat column.toInt.toNat), if_pos positive, ?_⟩
    rw [← nonempty, String.toList_ofList]
    exact ⟨some, upper, found⟩
  · rw [exists_read_eq_ok_iff, nonempty]
  · exact ⟨(read_eq_ok_iff.1 found).2.2, letters?_eq_some_iff_read.2 found⟩
  · intro m n s t first second
    obtain ⟨_, sUpper, sNumber⟩ := read_eq_ok_iff.1 (letters?_eq_some_iff_read.1 first)
    obtain ⟨_, tUpper, tNumber⟩ := read_eq_ok_iff.1 (letters?_eq_some_iff_read.1 second)
    rw [Int64.lt_iff_toInt_lt, sNumber, tNumber, Int.ofNat_lt, value_lt_value_iff sUpper tUpper,
      String.lt_iff_toList_lt, String.length_toList, String.length_toList]

/-- The greatest column, the run of letters behind its own, which is no column, and the step from
one letter to two. -/
theorem letters_spec_greatest :
    (1 ≤ Int64.maxValue.toInt ∧ letters? Int64.maxValue = some "CRPXNLSKVLJFHG" ∧
      read "CRPXNLSKVLJFHG".toList = .ok Int64.maxValue) ∧
    (¬ ∃ column, read "CRPXNLSKVLJFHH".toList = .ok column) ∧
    (letters? 26 = some "Z" ∧ letters? 27 = some "AA" ∧ (26 : Integer) < 27) := by
  obtain ⟨written, readable, back, ordered⟩ := letters_spec
  have positive : 1 ≤ Int64.maxValue.toInt := by decide
  have greatest : letters? Int64.maxValue = some "CRPXNLSKVLJFHG" := (back _ _ (by decide)).2
  have last : letters? 26 = some "Z" := (back "Z" 26 (by decide)).2
  have next : letters? 27 = some "AA" := (back "AA" 27 (by decide)).2
  refine ⟨⟨positive, greatest, ?_⟩, ?_, last, next, ?_⟩
  · obtain ⟨text, same, _, _, found⟩ := written Int64.maxValue positive
    rw [greatest] at same
    cases same
    exact found
  · rw [readable]
    rintro ⟨_, _, fits⟩
    exact absurd fits (by decide)
  · exact (ordered 26 27 "Z" "AA" last next).2 (Or.inl (by decide))

end

end CellFormula.Column
