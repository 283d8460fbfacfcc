import CellFormula.Literal
import CellFormula.Proofs.Address.Column
import CellFormula.Proofs.Text.Run

/-!
# Written references

Main statements: `read?_eq_some_iff`, the reader of references takes exactly a well-formed reference
off the front of a text; `read_text`, the text of an address with a reference form reads back as
that address.
-/

namespace CellFormula

namespace Reference

/-! ## The reader of references -/

/-- The parts of a reference are what their names say, and its row ends where it is closed. -/
structure WellFormed (r : Reference) : Prop where
  letters_ne : r.letters ≠ []
  letters : ∀ c ∈ r.letters, c.isUpper = true
  gap : ∀ c ∈ r.gap, isBlank c = true
  row_ne : r.row ≠ []
  row : ∀ c ∈ r.row, c.isDigit = true
  closing : r.closing.isDigit = false

theorem read?_spelling {r : Reference} (formed : r.WellFormed) (rest : List Char) :
    read? (r.spelling ++ rest) = some (r, rest) := by
  obtain ⟨opening, letters, gap, row, closing⟩ := r
  obtain ⟨lettersNe, allLetters, allBlank, rowNe, allRow, closes⟩ := formed
  simp only at lettersNe allLetters allBlank rowNe allRow closes
  have stopsLetters :
      ∀ c ∈ (',' :: (gap ++ (row ++ closing :: rest))).head?, c.isUpper = false := by
    rintro c first
    cases first
    rfl
  have stopsGap : ∀ c ∈ (row ++ closing :: rest).head?, isBlank c = false := by
    cases row with
    | nil => exact absurd rfl rowNe
    | cons digit row =>
      rintro c first
      cases first
      exact isBlank_of_isDigit (allRow digit List.mem_cons_self)
  have stopsRow : ∀ c ∈ (closing :: rest).head?, c.isDigit = false := by
    rintro c first
    cases first
    exact closes
  have all : spelling ⟨opening, letters, gap, row, closing⟩ ++ rest =
      opening :: (letters ++ ',' :: (gap ++ (row ++ closing :: rest))) := by
    simp [spelling]
  rw [all, read?]
  simp only [dropWhile_run allLetters stopsLetters, takeWhile_run allLetters stopsLetters,
    dropWhile_run allBlank stopsGap, takeWhile_run allBlank stopsGap,
    dropWhile_run allRow stopsRow, takeWhile_run allRow stopsRow]
  exact if_pos ⟨lettersNe, rowNe⟩

theorem of_read?_eq_some {r : Reference} {text rest : List Char}
    (found : read? text = some (r, rest)) : r.WellFormed ∧ text = r.spelling ++ rest := by
  unfold read? at found
  split at found
  · cases found
  · next opening body =>
    simp only at found
    split at found
    · next afterComma comma =>
      split at found
      · next closing behind closed =>
        split at found
        · next some =>
          cases found
          refine ⟨⟨some.1, fun c => of_mem_takeWhile, fun c => of_mem_takeWhile, some.2,
            fun c => of_mem_takeWhile, of_head_dropWhile closed⟩, ?_⟩
          have whole := List.takeWhile_append_dropWhile (p := Char.isUpper) (l := body)
          have gapped := List.takeWhile_append_dropWhile (p := isBlank) (l := afterComma)
          have rowed := List.takeWhile_append_dropWhile (p := Char.isDigit)
            (l := afterComma.dropWhile isBlank)
          rw [closed] at rowed
          rw [comma, ← gapped, ← rowed] at whole
          simpa [spelling] using whole.symm
        · cases found
      · cases found
    · cases found

/-- What is read at the front of a text is a well-formed reference, and all those are read. -/
theorem read?_eq_some_iff {r : Reference} {text rest : List Char} :
    read? text = some (r, rest) ↔ r.WellFormed ∧ text = r.spelling ++ rest := by
  refine ⟨of_read?_eq_some, ?_⟩
  rintro ⟨formed, rfl⟩
  exact read?_spelling formed rest

/-! ## The address of a reference -/

/-- A reference names an address that its letters and digits stand for. -/
theorem address_eq_ok_iff {r : Reference} (formed : r.WellFormed) {a : Address} :
    r.address = .ok a ↔
      a.x.toInt = (Column.value r.letters : Int) ∧ a.y.toInt = (Numeral.value r.row : Int) := by
  have column : ∀ x, Column.read r.letters = .ok x ↔ x.toInt = (Column.value r.letters : Int) := by
    intro x
    rw [Column.read_eq_ok_iff, and_iff_right formed.letters_ne, and_iff_right formed.letters]
  have row : ∀ y, Integer.readDigits false 0 r.row = .ok y ↔
      y.toInt = (Numeral.value r.row : Int) := by
    intro y
    rw [Integer.readDigits_eq_ok_iff (by decide)]
    exact and_iff_right formed.row
  rw [address]
  constructor
  · intro read
    cases readColumn : Column.read r.letters with
    | error cause => rw [readColumn] at read; cases read
    | ok x =>
      cases readRow : Integer.readDigits false 0 r.row with
      | error cause => rw [readColumn, readRow] at read; cases read
      | ok y =>
        rw [readColumn, readRow] at read
        cases read
        exact ⟨(column x).1 readColumn, (row y).1 readRow⟩
  · rintro ⟨x, y⟩
    rw [(column a.x).2 x, (row a.y).2 y]
    rfl

/-- A reference names no address exactly if its column or its row is too large. -/
theorem exists_address_eq_error_iff {r : Reference} (formed : r.WellFormed) :
    (∃ cause, r.address = .error cause) ↔
      ¬ Integer.Fits (Column.value r.letters) ∨ ¬ Integer.Fits (Numeral.value r.row) := by
  constructor
  · rintro ⟨cause, failed⟩
    rw [← Decidable.not_and_iff_not_or_not]
    rintro ⟨columnFits, rowFits⟩
    obtain ⟨x, column⟩ := Integer.exists_toInt_eq columnFits
    obtain ⟨y, row⟩ := Integer.exists_toInt_eq rowFits
    rw [(address_eq_ok_iff formed (a := ⟨x, y⟩)).2 ⟨column, row⟩] at failed
    cases failed
  · intro unfit
    cases read : r.address with
    | error cause => exact ⟨cause, rfl⟩
    | ok a =>
      obtain ⟨column, row⟩ := (address_eq_ok_iff formed).1 read
      rw [← column, ← row] at unfit
      exact unfit.elim (absurd (Integer.fits_toInt a.x)) (absurd (Integer.fits_toInt a.y))

end Reference

/-! ## Addresses -/

theorem trim_eq_self {text : List Char} (first : ∀ c ∈ text.head?, isBlank c = false)
    (last : ∀ c ∈ text.getLast?, isBlank c = false) : trim text = text :=
  trim_eq_iff.2 ⟨first, last, [], [], nofun, nofun, by simp⟩

theorem trim_of_dark {text : List Char} (dark : ∀ c ∈ text, isBlank c = false) : trim text = text :=
  trim_eq_self (fun c first => dark c (List.mem_of_mem_head? first))
    (fun c last => dark c (List.mem_of_getLast? last))

/-- Nothing is trimmed off between two brackets. -/
theorem Reference.trim_spelling {r : Reference} (opens : isBlank r.opening = false)
    (closes : isBlank r.closing = false) : trim r.spelling = r.spelling := by
  refine trim_eq_self ?_ ?_
  · rintro c first
    cases first
    exact opens
  · rintro c last
    rw [spelling, List.getLast?_concat] at last
    cases last
    exact closes

namespace Address

/-- The address has a reference form: its column has letters and its row is not negative. -/
def Referable (a : Address) : Prop := 1 ≤ a.x.toInt ∧ 0 ≤ a.y.toInt

instance (a : Address) : Decidable a.Referable :=
  inferInstanceAs (Decidable (1 ≤ a.x.toInt ∧ 0 ≤ a.y.toInt))

/-- The reference that names an address. -/
def written (a : Address) : Reference :=
  ⟨'\x7b', Column.lettersOfNat a.x.toInt.toNat, [], Numeral.digits a.y.toInt.natAbs, '\x7d'⟩

theorem wellFormed_written {a : Address} (referable : a.Referable) : a.written.WellFormed where
  letters_ne := Column.lettersOfNat_ne_nil (by have := referable.1; omega)
  letters := fun _ => Column.isUpper_of_mem_lettersOfNat
  gap := nofun
  row_ne := Numeral.digits_ne_nil _
  row := fun _ => Numeral.isDigit_of_mem_digits
  closing := rfl

theorem toList_text {a : Address} (referable : a.Referable) :
    a.text.toList = a.written.spelling := by
  obtain ⟨column, row⟩ := referable
  simp [text, reference?, Column.letters?, column, Int.not_lt.2 row,
    Integer.toList_text_of_nonneg row, written, Reference.spelling]

theorem reference?_of_referable {a : Address} (referable : a.Referable) :
    a.reference? = some a.text := by
  obtain ⟨column, row⟩ := referable
  rw [text, reference?, if_neg (Int.not_lt.2 row), Column.letters?, if_pos column]
  rfl

theorem reference?_of_not_referable {a : Address} (unreferable : ¬ a.Referable) :
    a.reference? = none := by
  unfold reference? Column.letters?
  split
  · rfl
  · next row =>
    rw [if_neg fun column => unreferable ⟨column, Int.not_lt.1 row⟩]
    rfl

theorem text_eq_of_not_referable {a : Address} (unreferable : ¬ a.Referable) :
    a.text = "(" ++ a.x.text ++ ", " ++ a.y.text ++ ")" := by
  rw [text, reference?_of_not_referable unreferable, Option.getD_none]

/-- The text of an address with a reference form reads back as that address. -/
theorem read_text {a : Address} (referable : a.Referable) : read a.text = .ok a := by
  have formed := wellFormed_written referable
  have found := Reference.read?_spelling formed []
  have trimmed : trim a.text.toList = a.written.spelling := by
    rw [toList_text referable]
    exact Reference.trim_spelling rfl rfl
  rw [List.append_nil] at found
  simp only [read, trimmed, found]
  rw [if_pos ⟨Or.inl rfl, Or.inl rfl⟩, Reference.address]
  have columnRead := Column.read_lettersOfNat referable.1
  have rowRead := Integer.readDigits_digits referable.2
  simp only [written, columnRead, rowRead]
  rfl

end Address

theorem readReference_text {a : Address} (referable : a.Referable) :
    readReference a.text = .ok a := by
  rw [readReference, Address.read_text referable]
  rfl

end CellFormula
