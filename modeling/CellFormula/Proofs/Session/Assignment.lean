import CellFormula.Proofs.Address.Notation
import CellFormula.Proofs.Session.History

/-!
# Running assignments

An assignment is told by its form alone: a reference in braces, and a body in square brackets
directly behind it. The body may be any text, also one with brackets in it, for it reaches to the
last bracket of the formula. It is stored as it stands.

Main statements: `isAssignment_iff_spelt`, which formulas are assignments;
`Session.assignment_spec`, what running a formula of this form does, and that no other formula does
it.
-/

namespace CellFormula

variable {formula body : String} {a : Address}

/-- A formula is an assignment if the lexer takes it for one and its target names an address. -/
theorem isAssignment_iff_assigns :
    IsAssignment formula a body ↔
      ∃ target, Assigns formula.toList target body.toList ∧ target.address = .ok a := by
  constructor
  · rintro ⟨span, lexed⟩
    unfold lex at lexed
    cases form : assignment? formula.toList with
    | none =>
      simp only [form] at lexed
      have tokenized := tokenized_lexFrom 0 formula.toList
      rw [lexed] at tokenized
      exact absurd rfl (Tiles.isWord tokenized _ List.mem_cons_self).1
    | some parts =>
      obtain ⟨target, inner⟩ := parts
      simp only [form, assignmentToken] at lexed
      cases named : target.address with
      | error cause => rw [named] at lexed; cases lexed
      | ok b =>
        rw [named] at lexed
        cases lexed
        rw [String.toList_ofList]
        exact ⟨target, assigns_of_assignment? form, named⟩
  · rintro ⟨target, assigns, named⟩
    let start := byteLength (formula.toList.takeWhile isBlank) + byteLength target.spelling + 1
    refine ⟨Span.ofText start body.toList, ?_⟩
    simp only [lex, assigns.assignment?, assignmentToken, named, ok_bind]
    rw [String.ofList_toList]
    rfl

/-- A formula assigns a body to an address exactly if it spells the address in braces, with the body
in square brackets behind it, and with nothing but blanks before and behind these. -/
theorem isAssignment_iff_spelt :
    IsAssignment formula a body ↔ ∃ left target right,
      (∀ c ∈ left, isBlank c = true) ∧ (∀ c ∈ right, isBlank c = true) ∧
        a.SpeltIn '\x7b' '\x7d' target ∧
        formula.toList = left ++ target ++ '[' :: body.toList ++ ']' :: right := by
  rw [isAssignment_iff_assigns]
  constructor
  · rintro ⟨r, ⟨formed, braced, left, right, leftBlank, rightBlank, whole⟩, named⟩
    obtain ⟨opens, closes⟩ := of_decide_eq_true braced
    exact ⟨left, r.spelling, right, leftBlank, rightBlank,
      ⟨r, formed, opens, closes, rfl, (Reference.address_eq_ok_iff formed).1 named⟩, whole⟩
  · rintro ⟨left, target, right, leftBlank, rightBlank,
      ⟨r, formed, opens, closes, rfl, numbers⟩, whole⟩
    exact ⟨r, ⟨formed, decide_eq_true ⟨opens, closes⟩, left, right, leftBlank, rightBlank, whole⟩,
      (Reference.address_eq_ok_iff formed).2 numbers⟩

namespace Session

variable {s : Session}

/-- When the formula is run, it is answered as an assignment of the body to the address, and the
session goes on with the body stored there and all other cells as they were. -/
structure Stores (s : Session) (formula : String) (a : Address) (body : String) : Prop where
  answer : (s.run formula).1.result = .ok (.assigned a body)
  stored : (s.run formula).2.grid.lookup a = some ⟨a, body⟩
  others : ∀ b, b ≠ a → (s.run formula).2.grid.lookup b = s.grid.lookup b
  limit : (s.run formula).2.limit = s.limit

theorem run_eq_assigned_iff :
    (s.run formula).1.result = .ok (.assigned a body) ↔ IsAssignment formula a body := by
  rw [run_fst]
  exact outcome_eq_assigned_iff
theorem stores_of_isAssignment (assigns : IsAssignment formula a body) :
    s.Stores formula a body where
  answer := run_eq_assigned_iff.2 assigns
  stored := by rw [run_of_isAssignment assigns, Grid.lookup_insert, if_pos rfl]
  others b other := by rw [run_of_isAssignment assigns, Grid.lookup_insert, if_neg other.symm]
  limit := by rw [run_of_isAssignment assigns]

/-- A reference with a body in square brackets behind it stores that body, whatever text it is, at
the address of the reference, and changes nothing else. There may be blanks before the reference,
behind its comma and behind the body. A formula is answered as an assignment only if it has this
form, with any spelling of the address: the body is all that stands between the bracket behind the
reference and the last bracket of the formula, which only blanks follow. -/
theorem assignment_spec (s : Session) :
    (∀ a : Address, a.Referable → ∃ letters,
      a.reference? = some ("\x7b" ++ letters ++ "," ++ a.y.text ++ "\x7d") ∧
      ∀ left gap right body : String, (∀ c ∈ left.toList, isBlank c = true) →
        (∀ c ∈ gap.toList, isBlank c = true) → (∀ c ∈ right.toList, isBlank c = true) →
        s.Stores
          (left ++ "\x7b" ++ letters ++ "," ++ gap ++ a.y.text ++ "\x7d[" ++ body ++ "]" ++ right)
          a body) ∧
    ∀ formula a body,
      ((s.run formula).1.result = .ok (.assigned a body) ↔ ∃ left target right,
        (∀ c ∈ left, isBlank c = true) ∧ (∀ c ∈ right, isBlank c = true) ∧
          a.SpeltIn '\x7b' '\x7d' target ∧
          formula.toList = left ++ target ++ '[' :: body.toList ++ ']' :: right) ∧
      ((s.run formula).1.result = .ok (.assigned a body) → s.Stores formula a body) := by
  refine ⟨fun a referable => ?_, fun formula a body => ⟨?_, fun answered => ?_⟩⟩
  · let letters := String.ofList (Column.lettersOfNat a.x.toInt.toNat)
    have written : Column.letters? a.x = some letters := if_pos referable.1
    refine ⟨letters, ?_, fun left gap right body leftBlank gapBlank rightBlank => ?_⟩
    · rw [Address.reference?, if_neg (Int.not_lt.2 referable.2), written]
      rfl
    · refine stores_of_isAssignment (isAssignment_iff_spelt.2 ⟨left.toList, _, right.toList,
        leftBlank, rightBlank, Address.speltIn_written referable gapBlank, ?_⟩)
      simp [letters, Reference.spelling, Address.written, Integer.toList_text_of_nonneg referable.2]
  · exact run_eq_assigned_iff.trans isAssignment_iff_spelt
  · exact stores_of_isAssignment (run_eq_assigned_iff.1 answered)

/-- A body that looks like an assignment itself, up to its last bracket. -/
theorem assignment_spec_nested :
    let s := Session.empty 1
    let formula := "\n\x7bAB,\t7\x7d[\x7bB,2\x7d[\"]\n]] "
    (⟨28, 7⟩ : Address).Referable ∧
      (s.run formula).1.result = .ok (.assigned ⟨28, 7⟩ "\x7bB,2\x7d[\"]\n]") ∧
      s.Stores formula ⟨28, 7⟩ "\x7bB,2\x7d[\"]\n]" := by
  intro s formula
  have referable : (⟨28, 7⟩ : Address).Referable := by decide
  obtain ⟨letters, name, stores⟩ := (assignment_spec s).1 ⟨28, 7⟩ referable
  have reference : (⟨28, 7⟩ : Address).reference? = some "\x7bAB,7\x7d" := by decide +kernel
  have row : Integer.text 7 = "7" := by decide +kernel
  obtain rfl : letters = "AB" := by
    rw [reference, row, Option.some.injEq, ← String.toList_inj] at name
    simp only [String.toList_append] at name
    have whole : ['\x7b', 'A', 'B'] ++ [',', '7', '\x7d'] =
        '\x7b' :: letters.toList ++ [',', '7', '\x7d'] := by simpa using name
    have front := List.append_cancel_right whole
    rw [← String.toList_inj]
    exact (List.cons.inj front).2.symm
  rw [row] at stores
  have stored : s.Stores formula ⟨28, 7⟩ "\x7bB,2\x7d[\"]\n]" :=
    stores "\n" "\t" " " "\x7bB,2\x7d[\"]\n]" (List.all_eq_true.1 rfl) (List.all_eq_true.1 rfl)
      (List.all_eq_true.1 rfl)
  exact ⟨referable, stored.answer, ((assignment_spec s).2 formula _ _).2 stored.answer⟩

end Session

end CellFormula
