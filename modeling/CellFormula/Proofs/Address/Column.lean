import CellFormula.Address.Column
import CellFormula.Proofs.Integer

/-!
# Letters and columns

Main statements: `read_eq_ok_iff`, a run of characters is read as a column exactly when it is a run
of capital letters whose number fits; `read_lettersOfNat`, reading undoes writing.
-/

namespace CellFormula.Column

/-- The number that a run of letters stands for, given the number read before it. -/
def valueFrom (read : Nat) (letters : List Char) : Nat :=
  letters.foldl (fun n c => 26 * n + letterValue c) read

/-- The number that a run of letters stands for. -/
def value (letters : List Char) : Nat := valueFrom 0 letters

theorem valueFrom_cons (read : Nat) (c : Char) (letters : List Char) :
    valueFrom read (c :: letters) = valueFrom (26 * read + letterValue c) letters := by
  unfold valueFrom
  exact List.foldl_cons ..

theorem le_valueFrom (read : Nat) (letters : List Char) : read ≤ valueFrom read letters := by
  induction letters generalizing read with
  | nil => exact Nat.le_refl read
  | cons c letters ih =>
    have step : read ≤ 26 * read + letterValue c := by omega
    exact Nat.le_trans step (ih _)

/-- The column that `readFrom` has read is the number of the letters, if that fits. -/
theorem readFrom_eq_ok_iff {whole letters : List Char} {read column : Integer}
    (start : 0 ≤ read.toInt) :
    readFrom whole read letters = .ok column ↔
      (∀ c ∈ letters, c.isUpper = true) ∧
        column.toInt = (valueFrom read.toInt.toNat letters : Int) := by
  induction letters generalizing read with
  | nil =>
    have same : ((read.toInt.toNat : Nat) : Int) = read.toInt := Int.toNat_of_nonneg start
    simp only [readFrom, Except.ok.injEq, List.not_mem_nil, false_implies, implies_true,
      true_and, valueFrom, List.foldl_nil, same]
    rw [← Int64.toInt_inj]
    exact eq_comm
  | cons c letters ih =>
    rw [readFrom]
    by_cases upper : c.isUpper = true
    · have step : 26 * read.toInt + (letterValue c : Int) =
          ((26 * read.toInt.toNat + letterValue c : Nat) : Int) := by omega
      rw [if_pos upper]
      simp only [List.mem_cons, forall_eq_or_imp, upper, true_and, valueFrom_cons]
      cases next : Integer.ofInt? (26 * read.toInt + (letterValue c : Int)) with
      | none =>
        refine iff_of_false nofun fun ⟨_, value⟩ => ?_
        have unfit := Integer.ofInt?_eq_none_iff.1 next
        rw [step, Integer.toInt_nonneg_iff_fits] at unfit
        have above := le_valueFrom (26 * read.toInt.toNat + letterValue c) letters
        have := (Integer.fits_toInt column).2
        omega
      | some more =>
        have value := Integer.ofInt?_eq_some_iff.1 next
        simp only
        rw [ih (by omega), value, step, Int.toNat_natCast]
    · rw [if_neg upper]
      exact iff_of_false nofun fun ⟨letters, _⟩ => upper (letters c List.mem_cons_self)

/-- What is read as a column is a run of letters whose number is the column. -/
theorem read_eq_ok_iff {letters : List Char} {column : Integer} :
    read letters = .ok column ↔
      letters ≠ [] ∧ (∀ c ∈ letters, c.isUpper = true) ∧ column.toInt = (value letters : Int) := by
  rw [read]
  split
  · next empty => exact iff_of_false nofun fun run => run.1 empty
  · next some =>
    rw [readFrom_eq_ok_iff (by decide)]
    exact (and_iff_right some).symm

/-- The only fault of a run of letters is that its number is too large. -/
theorem eq_of_readFrom_eq_error {whole letters : List Char} {read : Integer} {cause : AddressError}
    (upper : ∀ c ∈ letters, c.isUpper = true)
    (failed : readFrom whole read letters = .error cause) :
    cause = .columnTooLarge (String.ofList whole) := by
  induction letters generalizing read with
  | nil => cases failed
  | cons c letters ih =>
    obtain ⟨first, others⟩ := List.forall_mem_cons.1 upper
    rw [readFrom, if_pos first] at failed
    split at failed
    · exact ih others failed
    · cases failed
      rfl

theorem read_of_not_fits {letters : List Char} (some : letters ≠ [])
    (upper : ∀ c ∈ letters, c.isUpper = true) (unfit : ¬ Integer.Fits (value letters)) :
    read letters = .error (.columnTooLarge (String.ofList letters)) := by
  cases found : read letters with
  | ok column =>
    rw [← (read_eq_ok_iff.1 found).2.2] at unfit
    exact absurd (Integer.fits_toInt column) unfit
  | error cause =>
    rw [read, if_neg some] at found
    rw [eq_of_readFrom_eq_error upper found]

/-! ## Writing columns -/

theorem isUpper_letterChar {n : Nat} (small : n < 26) : (letterChar n).isUpper = true := by
  have all : ∀ k : Fin 26, (letterChar k).isUpper = true := by decide
  exact all ⟨n, small⟩

theorem letterValue_letterChar {n : Nat} (small : n < 26) : letterValue (letterChar n) = n + 1 := by
  have all : ∀ k : Fin 26, letterValue (letterChar k) = k + 1 := by decide
  exact all ⟨n, small⟩

theorem isUpper_of_mem_lettersOfNat {n : Nat} {c : Char} (mem : c ∈ lettersOfNat n) :
    c.isUpper = true := by
  fun_induction lettersOfNat n with
  | case1 => cases mem
  | case2 n positive ih =>
    rcases List.mem_append.1 mem with mem | mem
    · exact ih mem
    · rw [List.mem_singleton.1 mem]
      exact isUpper_letterChar (Nat.mod_lt _ (by decide))

theorem lettersOfNat_ne_nil {n : Nat} (positive : n ≠ 0) : lettersOfNat n ≠ [] := by
  rw [lettersOfNat, if_neg positive]
  simp

theorem value_lettersOfNat (n : Nat) : value (lettersOfNat n) = n := by
  fun_induction lettersOfNat n with
  | case1 => rfl
  | case2 n positive ih =>
    have last : (n - 1) % 26 < 26 := Nat.mod_lt _ (by decide)
    simp only [value, valueFrom] at ih
    simp only [value, valueFrom, List.foldl_append, List.foldl_cons, List.foldl_nil, ih,
      letterValue_letterChar last]
    omega

/-- Reading undoes writing. -/
theorem read_lettersOfNat {column : Integer} (positive : 1 ≤ column.toInt) :
    read (lettersOfNat column.toInt.toNat) = .ok column := by
  refine read_eq_ok_iff.2 ⟨lettersOfNat_ne_nil (by omega), fun c => isUpper_of_mem_lettersOfNat, ?_⟩
  rw [value_lettersOfNat]
  omega

end CellFormula.Column
