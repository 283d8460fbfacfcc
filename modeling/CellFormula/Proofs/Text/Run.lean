import CellFormula.Text.Blank

/-!
# Runs of characters

What readers take off the front of a text, and the kinds of characters that they tell apart.
-/

namespace CellFormula

/-- One or more characters, all of one kind. -/
structure Run (kind : Char → Bool) where
  text : List Char
  nonempty : text ≠ []
  all : ∀ c ∈ text, kind c = true

/-! ## Runs at the front -/

section Runs

variable {p : Char → Bool} {run rest text : List Char}

theorem takeWhile_run (all : ∀ c ∈ run, p c = true) (stops : ∀ c ∈ rest.head?, p c = false) :
    (run ++ rest).takeWhile p = run := by
  rw [List.takeWhile_append_of_pos all]
  cases rest with
  | nil => rw [List.takeWhile_nil, List.append_nil]
  | cons c rest => rw [List.takeWhile_cons_of_neg (by simp [stops c rfl]), List.append_nil]

theorem dropWhile_run (all : ∀ c ∈ run, p c = true) (stops : ∀ c ∈ rest.head?, p c = false) :
    (run ++ rest).dropWhile p = rest :=
  dropWhile_eq_iff.2 ⟨stops, run, all, rfl⟩

theorem of_mem_takeWhile {c : Char} (mem : c ∈ text.takeWhile p) : p c = true :=
  List.all_eq_true.1 List.all_takeWhile c mem

theorem of_head_dropWhile {c : Char} (dropped : text.dropWhile p = c :: rest) : p c = false :=
  (dropWhile_eq_iff.1 dropped).1 c rfl

end Runs

/-- An element of a list lies in its front or behind that. -/
theorem inside_or_behind {α : Type} {front text before after : List α} {x : α}
    (split : front ++ text = before ++ x :: after) :
    (∃ between, front = before ++ x :: between ∧ after = between ++ text) ∨
      ∃ between, before = front ++ between ∧ text = between ++ x :: after := by
  rcases List.append_eq_append_iff.1 split with ⟨between, behind⟩ | ⟨between, inside, rest⟩
  · exact Or.inr ⟨between, behind⟩
  · cases between with
    | nil => exact Or.inr ⟨[], by simpa using inside.symm, rest.symm⟩
    | cons y between => cases rest; exact Or.inl ⟨between, inside, rfl⟩

/-! ## Kinds of characters -/

theorem toNat_of_isDigit {c : Char} (digit : c.isDigit = true) : 48 ≤ c.toNat ∧ c.toNat ≤ 57 :=
  Char.isDigit_iff_toNat.1 digit

theorem toNat_of_isUpper {c : Char} (upper : c.isUpper = true) : 65 ≤ c.toNat ∧ c.toNat ≤ 90 :=
  of_decide_eq_true upper

theorem isBlank_of_isDigit {c : Char} (digit : c.isDigit = true) : isBlank c = false := by
  have bounds := toNat_of_isDigit digit
  simp only [isBlank, blankRanges, List.any_cons, List.any_nil, Bool.or_false, Bool.or_eq_false_iff,
    Bool.and_eq_false_iff, decide_eq_false_iff_not]
  omega

theorem isBlank_of_isUpper {c : Char} (upper : c.isUpper = true) : isBlank c = false := by
  have bounds := toNat_of_isUpper upper
  simp only [isBlank, blankRanges, List.any_cons, List.any_nil, Bool.or_false, Bool.or_eq_false_iff,
    Bool.and_eq_false_iff, decide_eq_false_iff_not]
  omega

/-- No digit is a letter. -/
theorem isUpper_of_isDigit {c : Char} (digit : c.isDigit = true) : c.isUpper = false := by
  rw [Bool.eq_false_iff]
  intro upper
  have := toNat_of_isDigit digit
  have := toNat_of_isUpper upper
  omega

end CellFormula
