import CellFormula.Proofs.Token.Lexer

/-!
# Assignments

Main statement: `assignment?_eq_some_iff`, the lexer takes for assignments the texts that assign a
body to a target, and no others.
-/

namespace CellFormula

/-! ## The form of an assignment -/

/-- The text assigns the body to the target: a reference in braces, the body in square brackets, and
nothing but blanks before and behind. -/
structure Assigns (text : List Char) (target : Reference) (body : List Char) : Prop where
  formed : target.WellFormed
  braced : target.isBraced = true
  spelt : ∃ left right, (∀ c ∈ left, isBlank c = true) ∧ (∀ c ∈ right, isBlank c = true) ∧
    text = left ++ target.spelling ++ '[' :: body ++ ']' :: right

theorem head_dark {r : Reference} (formed : r.WellFormed) (braced : r.isBraced = true)
    (rest : List Char) : ∀ c ∈ (r.spelling ++ rest).head?, isBlank c = false := by
  obtain ⟨letter, tail, _, shape⟩ := head_braced formed braced
  rw [shape]
  rintro c first
  cases first
  decide

theorem Assigns.assignment? {text body : List Char} {target : Reference}
    (assigns : Assigns text target body) : assignment? text = some (target, body) := by
  obtain ⟨formed, braced, left, right, leftBlank, rightBlank, rfl⟩ := assigns
  have behind : left ++ target.spelling ++ '[' :: body ++ ']' :: right =
      left ++ (target.spelling ++ '[' :: (body ++ [']'] ++ right)) := by simp
  have trimmed : trimEnd (body ++ [']'] ++ right) = body ++ [']'] := by
    refine trimEnd_eq_iff.2 ⟨?_, right, rightBlank, rfl⟩
    rintro c last
    rw [List.getLast?_concat] at last
    cases last
    decide
  rw [CellFormula.assignment?, behind, dropWhile_run leftBlank (head_dark formed braced _),
    Reference.read?_spelling formed]
  simp only [trimmed, List.getLast?_concat, List.dropLast_concat, braced, true_and, if_true]

theorem assigns_of_assignment? {text body : List Char} {target : Reference}
    (found : assignment? text = some (target, body)) : Assigns text target body := by
  unfold assignment? at found
  split at found
  · next r rest read =>
    obtain ⟨formed, spelt⟩ := Reference.read?_eq_some_iff.1 read
    split at found
    · next form =>
      obtain ⟨braced, closed⟩ := form
      obtain ⟨inner, ends⟩ := List.getLast?_eq_some_iff.1 closed
      rw [ends, List.dropLast_concat] at found
      cases found
      obtain ⟨_, right, rightBlank, tail⟩ := trimEnd_eq_iff.1 (rfl : trimEnd rest = _)
      have whole := List.takeWhile_append_dropWhile (p := isBlank) (l := text)
      rw [spelt, tail, ends] at whole
      refine ⟨formed, braced, text.takeWhile isBlank, right, fun c => of_mem_takeWhile,
        rightBlank, ?_⟩
      exact whole.symm.trans (by simp)
    · cases found
  · cases found

/-- The lexer takes a text for an assignment exactly if it assigns a body to a target. -/
theorem assignment?_eq_some_iff {text body : List Char} {target : Reference} :
    assignment? text = some (target, body) ↔ Assigns text target body :=
  ⟨assigns_of_assignment?, Assigns.assignment?⟩

/-- The body of an assignment stands behind the target and its bracket. -/
theorem Assigns.exists_split {text body : List Char} {target : Reference}
    (assigns : Assigns text target body) : ∃ before after, text = before ++ body ++ after ∧
      byteLength (text.takeWhile isBlank) + byteLength target.spelling + 1 = byteLength before := by
  obtain ⟨formed, braced, left, right, leftBlank, _, rfl⟩ := assigns
  have behind : left ++ target.spelling ++ '[' :: body ++ ']' :: right =
      left ++ (target.spelling ++ '[' :: body ++ ']' :: right) := by simp
  have leading :
      (left ++ target.spelling ++ '[' :: body ++ ']' :: right).takeWhile isBlank = left := by
    rw [behind, List.append_assoc target.spelling]
    exact takeWhile_run leftBlank (head_dark formed braced _)
  refine ⟨left ++ target.spelling ++ ['['], ']' :: right, by simp, ?_⟩
  rw [leading, byteLength_append, byteLength_append]
  rfl

end CellFormula
