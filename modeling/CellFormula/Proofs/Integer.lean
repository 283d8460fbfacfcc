import CellFormula.Integer

/-!
# Reading and writing integers

Main statements: `readDigits_eq_ok_iff`, a run of characters is read as an integer exactly when it
is a run of digits whose number fits; `read_digits`, reading undoes writing for integers that are
not negative; `text_injective`, different integers, negative ones too, have different texts.
-/

namespace CellFormula

namespace Numeral

theorem valueFrom_cons (read : Nat) (c : Char) (run : List Char) :
    valueFrom read (c :: run) = valueFrom (10 * read + digitValue c) run := by
  unfold valueFrom
  exact List.foldl_cons ..

theorem le_valueFrom (read : Nat) (run : List Char) : read ≤ valueFrom read run := by
  induction run generalizing read with
  | nil => exact Nat.le_refl read
  | cons c run ih =>
    have step : read ≤ 10 * read + digitValue c := by omega
    exact Nat.le_trans step (ih _)

/-! ## Written numbers -/

theorem digits_injective {m n : Nat} (same : digits m = digits n) : m = n := by
  rw [← value_digits m, same, value_digits]

/-- A number is written in digits, with a sign before them if it is negative. -/
theorem toList_ofInt (n : Int) :
    (ofInt n).toList = if n < 0 then '-' :: digits n.natAbs else digits n.natAbs := by
  unfold ofInt
  split <;> simp [ofNat]

theorem of_mem_ofInt {n : Int} {c : Char} (mem : c ∈ (ofInt n).toList) :
    c = '-' ∨ c.isDigit = true := by
  rw [toList_ofInt] at mem
  split at mem
  · exact (List.mem_cons.1 mem).imp_right isDigit_of_mem_digits
  · exact Or.inr (isDigit_of_mem_digits mem)

theorem digits_ne_minus (m n : Nat) : digits m ≠ '-' :: digits n := by
  intro same
  have minus : '-' ∈ digits m := same ▸ List.mem_cons_self
  exact absurd (isDigit_of_mem_digits minus) (by decide)

theorem ofInt_injective {m n : Int} (same : ofInt m = ofInt n) : m = n := by
  rw [← String.toList_inj, toList_ofInt, toList_ofInt] at same
  split at same <;> split at same
  · have magnitude := digits_injective (List.cons.inj same).2
    omega
  · exact absurd same.symm (digits_ne_minus _ _)
  · exact absurd same (digits_ne_minus _ _)
  · have magnitude := digits_injective same
    omega

end Numeral

namespace Integer

theorem exists_toInt_eq {n : Int} (fits : Fits n) : ∃ i : Integer, i.toInt = n := by
  cases found : ofInt? n with
  | none => exact absurd fits (ofInt?_eq_none_iff.1 found)
  | some i => exact ⟨i, ofInt?_eq_some_iff.1 found⟩

theorem toInt_nonneg_iff_fits {n : Nat} : Fits n ↔ (n : Int) ≤ Int64.maxValue.toInt := by
  refine ⟨fun fits => fits.2, fun below => ⟨?_, below⟩⟩
  have : Int64.minValue.toInt ≤ 0 := by decide
  omega

/-- The integer that `readDigits` has read is the number of the digits, if that fits. -/
theorem readDigits_eq_ok_iff {read i : Integer} {run : List Char} (start : 0 ≤ read.toInt) :
    readDigits false read run = .ok i ↔
      (∀ c ∈ run, c.isDigit = true) ∧
        i.toInt = (Numeral.valueFrom read.toInt.toNat run : Int) := by
  induction run generalizing read with
  | nil =>
    have same : ((read.toInt.toNat : Nat) : Int) = read.toInt := Int.toNat_of_nonneg start
    simp only [readDigits, Except.ok.injEq, List.not_mem_nil, false_implies, implies_true,
      true_and, Numeral.valueFrom, List.foldl_nil, same]
    rw [← Int64.toInt_inj]
    exact eq_comm
  | cons c run ih =>
    rw [readDigits]
    by_cases digit : c.isDigit = true
    · have step : 10 * read.toInt + (Numeral.digitValue c : Int) =
          ((10 * read.toInt.toNat + Numeral.digitValue c : Nat) : Int) := by omega
      rw [if_pos digit]
      simp only [Bool.false_eq_true, if_false, List.mem_cons, forall_eq_or_imp, digit, true_and,
        Numeral.valueFrom_cons]
      cases next : ofInt? (10 * read.toInt + (Numeral.digitValue c : Int)) with
      | none =>
        refine iff_of_false (fun read => by cases read) ?_
        rintro ⟨_, value⟩
        have unfit := ofInt?_eq_none_iff.1 next
        rw [step, toInt_nonneg_iff_fits] at unfit
        have above := Numeral.le_valueFrom (10 * read.toInt.toNat + Numeral.digitValue c) run
        have := (fits_toInt i).2
        omega
      | some more =>
        have value := ofInt?_eq_some_iff.1 next
        simp only
        rw [ih (by omega), value, step, Int.toNat_natCast]
    · rw [if_neg digit]
      refine iff_of_false (fun read => by cases read) ?_
      rintro ⟨digits, _⟩
      exact digit (digits c List.mem_cons_self)

/-- The only fault of a run of digits is that its number is too large. -/
theorem eq_of_readDigits_eq_error {read : Integer} {run : List Char} {cause : IntegerError}
    (digits : ∀ c ∈ run, c.isDigit = true) (failed : readDigits false read run = .error cause) :
    cause = .tooLarge := by
  induction run generalizing read with
  | nil => cases failed
  | cons c run ih =>
    obtain ⟨first, others⟩ := List.forall_mem_cons.1 digits
    rw [readDigits, if_pos first] at failed
    simp only at failed
    split at failed
    · exact ih others failed
    · cases failed
      rfl

/-- A run of digits is read as its number, or is too large. -/
theorem readDigits_of_isDigit {run : List Char} (digits : ∀ c ∈ run, c.isDigit = true) :
    (∃ i : Integer, readDigits false 0 run = .ok i ∧ i.toInt = (Numeral.value run : Int)) ∨
      readDigits false 0 run = .error .tooLarge ∧ ¬ Fits (Numeral.value run) := by
  have start : 0 ≤ Int64.toInt 0 := by decide
  cases answer : readDigits false 0 run with
  | ok i => exact Or.inl ⟨i, rfl, ((readDigits_eq_ok_iff start).1 answer).2⟩
  | error cause =>
    obtain rfl := eq_of_readDigits_eq_error digits answer
    refine Or.inr ⟨rfl, fun fits => ?_⟩
    obtain ⟨i, number⟩ := exists_toInt_eq fits
    rw [(readDigits_eq_ok_iff start).2 ⟨digits, number⟩] at answer
    cases answer

theorem read_of_isDigit {run : List Char} (nonempty : run ≠ [])
    (digits : ∀ c ∈ run, c.isDigit = true) : read run = readDigits false 0 run := by
  cases run with
  | nil => exact absurd rfl nonempty
  | cons c rest =>
    have digit := digits c List.mem_cons_self
    have notPlus : c ≠ '+' := by rintro rfl; exact absurd digit (by decide)
    have notMinus : c ≠ '-' := by rintro rfl; exact absurd digit (by decide)
    unfold read
    split <;> simp_all

/-! ## Written integers -/

theorem text_ne_nil (i : Integer) : (text i).toList ≠ [] := by
  rw [text, Numeral.toList_ofInt]
  split
  · exact List.cons_ne_nil _ _
  · exact Numeral.digits_ne_nil _

/-- Different integers have different texts. -/
theorem text_injective {i j : Integer} (same : text i = text j) : i = j :=
  Int64.toInt_inj.1 (Numeral.ofInt_injective same)

theorem text_of_nonneg {i : Integer} (nonneg : 0 ≤ i.toInt) :
    text i = Numeral.ofNat i.toInt.natAbs := by
  rw [text, Numeral.ofInt, if_neg (Int.not_lt.2 nonneg)]

theorem text_maxValue : text Int64.maxValue = "9223372036854775807" := by
  rw [text_of_nonneg (by decide)]
  have most : Int64.maxValue.toInt.natAbs = 9223372036854775807 := by decide
  simp [most, Numeral.ofNat, Numeral.digits, Numeral.digitChar]

theorem toList_text_of_nonneg {i : Integer} (nonneg : 0 ≤ i.toInt) :
    (text i).toList = Numeral.digits i.toInt.natAbs := by
  rw [text_of_nonneg nonneg, Numeral.ofNat, String.toList_ofList]

theorem readDigits_digits {i : Integer} (nonneg : 0 ≤ i.toInt) :
    readDigits false 0 (Numeral.digits i.toInt.natAbs) = .ok i := by
  have start : 0 ≤ Int64.toInt 0 := by decide
  refine (readDigits_eq_ok_iff start).2 ⟨fun c => Numeral.isDigit_of_mem_digits, ?_⟩
  have value := Numeral.value_digits i.toInt.natAbs
  rw [Numeral.value] at value
  change _ = (Numeral.valueFrom 0 _ : Int)
  rw [value, Int.natAbs_of_nonneg nonneg]

/-- Reading undoes writing. -/
theorem read_digits {i : Integer} (nonneg : 0 ≤ i.toInt) :
    read (Numeral.digits i.toInt.natAbs) = .ok i := by
  rw [read_of_isDigit (Numeral.digits_ne_nil _) fun c => Numeral.isDigit_of_mem_digits]
  exact readDigits_digits nonneg

end Integer

end CellFormula
