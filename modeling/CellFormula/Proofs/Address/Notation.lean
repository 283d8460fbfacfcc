import CellFormula.Proofs.Address.Reference

/-!
# Notations of addresses

An address can be read in the notation of formulas, `{A,1}`, and in that of grids, `(A,1)`. The
reader looks at one bracket at a time, though, so that it also takes a notation that begins like the
one and ends like the other.

Main statements: `read_eq_address`, a text in brackets names the address of its letters and digits;
`read_spec`, which texts are read as addresses, and what is wrong with the others.
-/

namespace CellFormula

namespace Reference

variable {r : Reference}

/-- The reference begins and ends with brackets, of whatever kinds. -/
def Bracketed (r : Reference) : Prop :=
  (r.opening = '\x7b' ∨ r.opening = '(') ∧ (r.closing = '\x7d' ∨ r.closing = ')')

/-- A reference that names no address has too large a column, or else too large a row. -/
theorem of_address_eq_error (formed : r.WellFormed) {cause : AddressError}
    (failed : r.address = .error cause) :
    ¬ Integer.Fits (Column.value r.letters) ∧ cause = .columnTooLarge (String.ofList r.letters) ∨
      ¬ Integer.Fits (Numeral.value r.row) ∧ cause = .rowTooLarge (String.ofList r.spelling) := by
  by_cases fits : Integer.Fits (Column.value r.letters)
  · obtain ⟨x, column⟩ := Integer.exists_toInt_eq fits
    rw [address, Column.read_eq_ok_iff.2 ⟨formed.letters_ne, formed.letters, column⟩] at failed
    rcases Integer.readDigits_of_isDigit formed.row with ⟨y, row, _⟩ | ⟨row, large⟩
    · rw [row] at failed
      cases failed
    · rw [row] at failed
      cases failed
      exact Or.inr ⟨large, rfl⟩
  · rw [address, Column.read_of_not_fits formed.letters_ne formed.letters fits] at failed
    cases failed
    exact Or.inl ⟨fits, rfl⟩

end Reference

namespace Address

/-- The text spells the address out between these brackets: capital letters for its column, a comma,
blanks if any, and digits for its row. -/
def SpeltIn (a : Address) (opening closing : Char) (text : List Char) : Prop :=
  ∃ r : Reference, r.WellFormed ∧ r.opening = opening ∧ r.closing = closing ∧ text = r.spelling ∧
    a.x.toInt = (Column.value r.letters : Int) ∧ a.y.toInt = (Numeral.value r.row : Int)

variable {a : Address} {opening closing : Char} {text : String} {r : Reference}

theorem SpeltIn.getLast? {spelling : List Char} (spelt : a.SpeltIn opening closing spelling) :
    spelling.getLast? = some closing := by
  obtain ⟨r, _, _, rfl, rfl, _⟩ := spelt
  exact List.getLast?_concat

theorem SpeltIn.head? {spelling : List Char} (spelt : a.SpeltIn opening closing spelling) :
    spelling.head? = some opening := by
  obtain ⟨r, _, rfl, _, rfl, _⟩ := spelt
  rfl

/-- An address is spelt by its reference, also with blanks behind the comma. -/
theorem speltIn_written (referable : a.Referable) {gap : List Char}
    (blank : ∀ c ∈ gap, isBlank c = true) :
    a.SpeltIn '\x7b' '\x7d' (Reference.spelling { a.written with gap }) := by
  have formed := wellFormed_written referable
  refine ⟨{ a.written with gap }, ⟨formed.letters_ne, formed.letters, blank, formed.row_ne,
    formed.row, formed.closing⟩, rfl, rfl, rfl, ?_, ?_⟩
  · have positive := referable.1
    simp only [written, Column.value_lettersOfNat]
    omega
  · have nonneg := referable.2
    simp only [written, Numeral.value_digits]
    omega

/-! ## The reader of addresses -/

theorem read_eq_address (formed : r.WellFormed) (bracketed : r.Bracketed)
    (spelt : trim text.toList = r.spelling) : read text = r.address := by
  have found := Reference.read?_spelling formed []
  rw [List.append_nil] at found
  rw [read, spelt, found]
  exact if_pos bracketed

theorem read_eq_malformed
    (unspelt : ∀ r : Reference, r.WellFormed → r.Bracketed → trim text.toList ≠ r.spelling) :
    read text = .error (.malformed (String.ofList (trim text.toList))) := by
  rw [read]
  split
  · next r found =>
    obtain ⟨formed, spelt⟩ := Reference.read?_eq_some_iff.1 found
    rw [List.append_nil] at spelt
    exact if_neg fun bracketed => unspelt r formed bracketed spelt
  · rfl

/-- A text is read as the address that it spells between two brackets, if it does. -/
theorem read_eq_ok_iff :
    read text = .ok a ↔ ∃ opening closing, (opening = '\x7b' ∨ opening = '(') ∧
      (closing = '\x7d' ∨ closing = ')') ∧ a.SpeltIn opening closing (trim text.toList) := by
  constructor
  · intro found
    by_cases spelt : ∃ r : Reference, r.WellFormed ∧ r.Bracketed ∧ trim text.toList = r.spelling
    · obtain ⟨r, formed, bracketed, spelt⟩ := spelt
      rw [read_eq_address formed bracketed spelt, Reference.address_eq_ok_iff formed] at found
      exact ⟨r.opening, r.closing, bracketed.1, bracketed.2, r, formed, rfl, rfl, spelt, found⟩
    · rw [read_eq_malformed fun r formed bracketed same =>
        spelt ⟨r, formed, bracketed, same⟩] at found
      cases found
  · rintro ⟨_, _, opens, closes, r, formed, rfl, rfl, spelt, numbers⟩
    rw [read_eq_address formed ⟨opens, closes⟩ spelt]
    exact (Reference.address_eq_ok_iff formed).2 numbers

/-- A text that is no address is malformed, or else its column or its row is too large. -/
theorem of_read_eq_error {cause : AddressError} (failed : read text = .error cause) :
    ((¬ ∃ r : Reference, r.WellFormed ∧ r.Bracketed ∧ trim text.toList = r.spelling) ∧
      cause = .malformed (String.ofList (trim text.toList))) ∨
    ∃ r : Reference, r.WellFormed ∧ r.Bracketed ∧ trim text.toList = r.spelling ∧
      (¬ Integer.Fits (Column.value r.letters) ∧ cause = .columnTooLarge (String.ofList r.letters) ∨
        ¬ Integer.Fits (Numeral.value r.row) ∧
          cause = .rowTooLarge (String.ofList r.spelling)) := by
  by_cases spelt : ∃ r : Reference, r.WellFormed ∧ r.Bracketed ∧ trim text.toList = r.spelling
  · obtain ⟨r, formed, bracketed, spelt⟩ := spelt
    rw [read_eq_address formed bracketed spelt] at failed
    exact .inr ⟨r, formed, bracketed, spelt, Reference.of_address_eq_error formed failed⟩
  · rw [read_eq_malformed fun r formed bracketed same =>
      spelt ⟨r, formed, bracketed, same⟩] at failed
    cases failed
    exact .inl ⟨spelt, rfl⟩

/-- A text is read as an address exactly if, but for blanks around it, it spells that address in
braces or in parentheses, or else between brackets of which one is a brace and the other a
parenthesis. If it is not read then it has no such spelling, or its column or its row is too
large. -/
theorem read_spec (text : String) :
    (∀ a, read text = .ok a ↔
      (a.SpeltIn '\x7b' '\x7d' (trim text.toList) ∨ a.SpeltIn '(' ')' (trim text.toList)) ∨
        a.SpeltIn '\x7b' ')' (trim text.toList) ∨ a.SpeltIn '(' '\x7d' (trim text.toList)) ∧
    ∀ cause, read text = .error cause →
      ((¬ ∃ r : Reference, r.WellFormed ∧ r.Bracketed ∧ trim text.toList = r.spelling) ∧
        cause = .malformed (String.ofList (trim text.toList))) ∨
      ∃ r : Reference, r.WellFormed ∧ r.Bracketed ∧ trim text.toList = r.spelling ∧
        (¬ Integer.Fits (Column.value r.letters) ∧
            cause = .columnTooLarge (String.ofList r.letters) ∨
          ¬ Integer.Fits (Numeral.value r.row) ∧
            cause = .rowTooLarge (String.ofList r.spelling)) := by
  refine ⟨fun a => read_eq_ok_iff.trans ⟨?_, ?_⟩, fun cause => of_read_eq_error⟩
  · rintro ⟨_, _, rfl | rfl, rfl | rfl, spelt⟩
    · exact .inl (.inl spelt)
    · exact .inr (.inl spelt)
    · exact .inr (.inr spelt)
    · exact .inl (.inr spelt)
  · rintro ((spelt | spelt) | spelt | spelt)
    · exact ⟨_, _, .inl rfl, .inl rfl, spelt⟩
    · exact ⟨_, _, .inr rfl, .inr rfl, spelt⟩
    · exact ⟨_, _, .inl rfl, .inr rfl, spelt⟩
    · exact ⟨_, _, .inr rfl, .inl rfl, spelt⟩

/-- The last row, with zeros before it and blanks where they may stand, and the row behind it, which
is too large. -/
theorem read_spec_last :
    (⟨28, Int64.maxValue⟩ : Address).SpeltIn '(' ')'
      (trim " (AB,\t009223372036854775807)\n".toList) ∧
    (read "(AB,9223372036854775808)" = .error (.rowTooLarge "(AB,9223372036854775808)") ∧
      ∃ r : Reference, r.WellFormed ∧ r.Bracketed ∧
        trim "(AB,9223372036854775808)".toList = r.spelling ∧
        ¬ Integer.Fits (Numeral.value r.row)) := by
  have found : read " (AB,\t009223372036854775807)\n" = .ok ⟨28, Int64.maxValue⟩ := by rfl
  have failed : read "(AB,9223372036854775808)" =
      .error (.rowTooLarge "(AB,9223372036854775808)") := by rfl
  refine ⟨?_, failed, ?_⟩
  · have last : (trim " (AB,\t009223372036854775807)\n".toList).getLast? = some ')' := by rfl
    have first : (trim " (AB,\t009223372036854775807)\n".toList).head? = some '(' := by rfl
    rcases ((read_spec _).1 _).1 found with (spelt | spelt) | spelt | spelt
    · exact absurd (first.symm.trans spelt.head?) (by decide)
    · exact spelt
    · exact absurd (first.symm.trans spelt.head?) (by decide)
    · exact absurd (last.symm.trans spelt.getLast?) (by decide)
  · rcases (read_spec _).2 _ failed with ⟨_, other⟩ | ⟨r, formed, bracketed, spelt, large⟩
    · cases other
    · refine ⟨r, formed, bracketed, spelt, ?_⟩
      rcases large with ⟨_, other⟩ | ⟨large, _⟩
      · cases other
      · exact large

/-- An opening brace and a closing parenthesis are read as if they matched, although the text is in
neither of the two notations. -/
theorem read_crossed :
    read "\x7bA,1)" = .ok ⟨1, 1⟩ ∧
      (∀ a : Address, ¬ a.SpeltIn '\x7b' '\x7d' (trim "\x7bA,1)".toList)) ∧
      ∀ a : Address, ¬ a.SpeltIn '(' ')' (trim "\x7bA,1)".toList) := by
  have trimmed : trim "\x7bA,1)".toList = ['\x7b', 'A', ',', '1', ')'] := by rfl
  refine ⟨by rfl, fun a spelt => ?_, fun a spelt => ?_⟩
  · rw [trimmed] at spelt
    cases spelt.getLast?
  · rw [trimmed] at spelt
    cases spelt.head?

end Address

end CellFormula
