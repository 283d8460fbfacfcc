import CellFormula.Proofs.Address.Notation
import CellFormula.Proofs.Address.Numeration
import CellFormula.Proofs.Evaluation.Basic
import CellFormula.Proofs.Tree.Spelling

/-!
# Texts of addresses

An address is written as its reference, or as a pair of numbers in parentheses if it has none.
Parentheses stand around the notation of grids as well, `(A,1)`, which the reader of addresses
takes. But where that has a letter, a pair has a digit or a sign, so that no pair is ever read.

Main statements: `reference?_eq_some_iff`, which addresses have a reference, and that it is their
text; `read_text_of_not_referable`, a pair is read as no address; `text_injective`, different
addresses have different texts; `text_spec`, how the text of an address is read, by itself and as a
formula.
-/

namespace CellFormula.Address

variable {a b : Address} {source reference : String}

/-- The addresses with a reference are those that are written as one. -/
theorem reference?_eq_some_iff :
    a.reference? = some reference ↔ a.Referable ∧ reference = a.text := by
  by_cases referable : a.Referable
  · rw [reference?_of_referable referable, Option.some.injEq, and_iff_right referable]
    exact eq_comm
  · rw [reference?_of_not_referable referable]
    exact iff_of_false nofun fun written => referable written.1

/-! ## Pairs -/

/-- The pair by which an address is written that has no reference. It is laid out as a reference is,
but with a number in the place of the letters. -/
def pair (a : Address) : Reference := ⟨'(', a.x.text.toList, [' '], a.y.text.toList, ')'⟩

theorem toList_text_of_not_referable (unreferable : ¬ a.Referable) :
    a.text.toList = a.pair.spelling := by
  rw [text_eq_of_not_referable unreferable]
  simp [String.toList_append, pair, Reference.spelling]

/-- Where a reference has its first letter, a pair has a digit or a sign. -/
theorem spelling_ne_pair {r : Reference} (formed : r.WellFormed) :
    r.spelling ≠ a.pair.spelling := by
  intro same
  obtain ⟨first, letters, column⟩ := List.exists_cons_of_ne_nil formed.letters_ne
  obtain ⟨sign, digits, number⟩ := List.exists_cons_of_ne_nil (Integer.text_ne_nil a.x)
  simp only [Reference.spelling, pair, column, number, List.cons_append, List.cons.injEq] at same
  obtain ⟨_, rfl, _⟩ := same
  have upper : first.isUpper = true := formed.letters first (column ▸ List.mem_cons_self)
  have written : first ∈ a.x.text.toList := number ▸ List.mem_cons_self
  rcases Numeral.of_mem_ofInt written with rfl | digit
  · exact absurd upper (by decide)
  · rw [isUpper_of_isDigit digit] at upper
    cases upper

theorem comma_not_mem_text (n : Integer) : ',' ∉ n.text.toList := by
  intro mem
  rcases Numeral.of_mem_ofInt mem with sign | digit
  · cases sign
  · cases digit

/-- The numbers of a pair can be told apart, since neither of them has a comma in it. -/
theorem eq_of_pair_spelling_eq (same : a.pair.spelling = b.pair.spelling) : a = b := by
  have numbers : a.x.text.toList ++ ',' :: ' ' :: (a.y.text.toList ++ [')']) =
      b.x.text.toList ++ ',' :: ' ' :: (b.y.text.toList ++ [')']) := by
    simpa [pair, Reference.spelling] using same
  have noComma : ',' ∉ ' ' :: (a.y.text.toList ++ [')']) := by
    simp [comma_not_mem_text]
  obtain ⟨column, _, behind⟩ :=
    (List.append_cons_inj_of_notMem (comma_not_mem_text a.x) noComma).1 numbers
  have row := List.append_cancel_right (List.cons.inj behind).2
  exact Address.ext (Integer.text_injective (String.toList_inj.1 column))
    (Integer.text_injective (String.toList_inj.1 row))

/-! ## Reading texts of addresses -/

theorem read_text_of_not_referable (unreferable : ¬ a.Referable) :
    read a.text = .error (.malformed a.text) := by
  have written := toList_text_of_not_referable unreferable
  have trimmed : trim a.text.toList = a.text.toList := by
    rw [written]
    exact Reference.trim_spelling rfl rfl
  rw [read_eq_malformed, trimmed, String.ofList_toList]
  rintro r formed _ spelt
  rw [trimmed, written] at spelt
  exact spelling_ne_pair formed spelt.symm

/-- If the text of an address is read at all, then as that address. -/
theorem read_text_eq_ok_iff : read a.text = .ok b ↔ a.Referable ∧ a = b := by
  by_cases referable : a.Referable
  · rw [read_text referable, Except.ok.injEq, and_iff_right referable]
  · rw [read_text_of_not_referable referable]
    exact iff_of_false nofun fun written => referable written.1

/-- Different addresses have different texts. -/
theorem text_injective (same : a.text = b.text) : a = b := by
  have readable : ∀ c, a.Referable ∧ a = c ↔ b.Referable ∧ b = c := fun c => by
    rw [← read_text_eq_ok_iff, same, read_text_eq_ok_iff]
  -- a reference is told by what is read from it; from pairs nothing is read, so their numbers are
  -- compared
  by_cases referable : a.Referable
  · exact ((readable a).1 ⟨referable, rfl⟩).2.symm
  · have unreferable : ¬ b.Referable := fun other => referable ((readable b).2 ⟨other, rfl⟩).1
    rw [← String.toList_inj, toList_text_of_not_referable referable,
      toList_text_of_not_referable unreferable] at same
    exact eq_of_pair_spelling_eq same

/-- What is read as an address has a reference. -/
theorem referable_of_read (found : read source = .ok a) : a.Referable := by
  obtain ⟨_, _, _, _, r, formed, _, _, _, column, row⟩ := read_eq_ok_iff.1 found
  have letters : Column.read (String.ofList r.letters).toList = .ok a.x := by
    rw [String.toList_ofList]
    exact Column.read_eq_ok_iff.2 ⟨formed.letters_ne, formed.letters, column⟩
  exact ⟨(Column.letters?_eq_some_iff.1 (Column.letters?_eq_some_iff_read.2 letters)).1, by omega⟩

/-! ## Texts of addresses as formulas -/

theorem evaluateTree_text (referable : a.Referable) (c : Context) :
    c.evaluateTree (.leaf .reference a.text) = c.resolve a := by
  rw [Context.evaluateTree, Tree.evaluate, evaluateLeaf, readReference_text referable]
  rfl

/-- An address whose column is at least one and whose row is not negative is written so that the
text is read as that address. The same text is one token of a formula, a reference, and has in every
context the value to which the address is resolved there. Any other address is written so that the
text is read as none. No two addresses have the same text. Whatever is read as an address, that
address has a reference, from which it can be read again. -/
theorem text_spec (a : Address) :
    (1 ≤ a.x.toInt ∧ 0 ≤ a.y.toInt →
      read a.text = .ok a ∧
      lex a.text = .ok [⟨.reference, a.text, Span.ofText 0 a.text.toList, none⟩] ∧
      Tree.ofText a.text = .ok (.leaf .reference a.text) ∧
      ∀ c : Context, c.evaluateTree (.leaf .reference a.text) = c.resolve a) ∧
    (a.x.toInt < 1 ∨ a.y.toInt < 0 → read a.text = .error (.malformed a.text)) ∧
    (∀ b : Address, b.text = a.text → b = a) ∧
    ∀ source, read source = .ok a →
      ∃ reference, a.reference? = some reference ∧ read reference = .ok a := by
  refine ⟨fun referable => ?_, fun outside => ?_, fun b => text_injective, fun source found => ?_⟩
  · have spelt := lexes_reference referable
    have tokens := lex_eq spelt
    rw [wordToken, String.ofList_toList] at tokens
    have parsed := (Spells.atom rfl spelt).group.ofText_eq
    exact ⟨read_text referable, tokens, parsed, evaluateTree_text referable⟩
  · refine read_text_of_not_referable fun referable => ?_
    obtain ⟨column, row⟩ := referable
    omega
  · have referable := referable_of_read found
    exact ⟨a.text, reference?_eq_some_iff.2 ⟨referable, rfl⟩, read_text referable⟩

/-- The last address, one to the left of the first column, and one that is read from the notation of
grids. -/
theorem text_spec_last :
    let last : Address := ⟨Int64.maxValue, Int64.maxValue⟩
    let outside : Address := ⟨0, 4⟩
    ((1 ≤ last.x.toInt ∧ 0 ≤ last.y.toInt) ∧
      last.text = "\x7bCRPXNLSKVLJFHG,9223372036854775807\x7d" ∧ read last.text = .ok last ∧
      ∀ c : Context, c.evaluateTree (.leaf .reference last.text) = c.resolve last) ∧
    ((outside.x.toInt < 1 ∨ outside.y.toInt < 0) ∧ outside.text = "(0, 4)" ∧
      read "(0, 4)" = .error (.malformed "(0, 4)") ∧
        ∀ b : Address, b.text = "(0, 4)" → b = outside) ∧
    read " (AB, 012)\n" = .ok ⟨28, 12⟩ ∧
      ∃ reference, reference? ⟨28, 12⟩ = some reference ∧ read reference = .ok ⟨28, 12⟩ := by
  intro last outside
  have within : 1 ≤ last.x.toInt ∧ 0 ≤ last.y.toInt := by decide
  have left : outside.x.toInt < 1 ∨ outside.y.toInt < 0 := by decide
  have reference : last.text = "\x7bCRPXNLSKVLJFHG,9223372036854775807\x7d" := by decide +kernel
  have pair : outside.text = "(0, 4)" := by decide +kernel
  have found : read " (AB, 012)\n" = .ok ⟨28, 12⟩ := by rfl
  obtain ⟨read_last, _, _, evaluated⟩ := (text_spec last).1 within
  obtain ⟨_, refused, unique, _⟩ := text_spec outside
  rw [pair] at refused unique
  exact ⟨⟨within, reference, read_last, evaluated⟩, ⟨left, pair, refused left, unique⟩, found,
    (text_spec ⟨28, 12⟩).2.2.2 _ found⟩

end CellFormula.Address
