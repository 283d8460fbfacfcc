/-!
# Blank characters

Formulas are split, and their ends trimmed, at the characters that carry the Unicode property
`White_Space`. The table below is that property, whole: 25 code points in ten ranges.

Main statement: `trim_eq_iff`, a text is trimmed to what is left of it when blanks are taken away at
both ends until there are none.
-/

namespace CellFormula

/-- The closed ranges of code points with the property `White_Space`, ascending and apart. -/
def blankRanges : List (Nat × Nat) :=
  [(0x09, 0x0D), (0x20, 0x20), (0x85, 0x85), (0xA0, 0xA0), (0x1680, 0x1680), (0x2000, 0x200A),
   (0x2028, 0x2029), (0x202F, 0x202F), (0x205F, 0x205F), (0x3000, 0x3000)]

/-- Whether the character has the property `White_Space`. -/
def isBlank (c : Char) : Bool :=
  blankRanges.any fun range => range.1 ≤ c.toNat && c.toNat ≤ range.2

/-- The table holds 25 code points. -/
example : (blankRanges.map fun range => range.2 + 1 - range.1).sum = 25 := by decide

/-- Removes the blank characters at the end. -/
def trimEnd (text : List Char) : List Char :=
  (text.reverse.dropWhile isBlank).reverse

/-- Removes the blank characters at both ends. -/
def trim (text : List Char) : List Char :=
  trimEnd (text.dropWhile isBlank)

/-! ## What trimming removes -/

/-- What is dropped off the front is all of one kind, and what is left does not begin with it. -/
theorem dropWhile_eq_iff {kind : Char → Bool} {text rest : List Char} :
    text.dropWhile kind = rest ↔
      (∀ c ∈ rest.head?, kind c = false) ∧
        ∃ run, (∀ c ∈ run, kind c = true) ∧ text = run ++ rest := by
  constructor
  · rintro rfl
    refine ⟨fun c first => ?_, text.takeWhile kind, fun c mem => ?_,
      List.takeWhile_append_dropWhile.symm⟩
    · have stops := List.head?_dropWhile_not kind text
      rwa [Option.mem_def.1 first] at stops
    · exact List.all_eq_true.1 List.all_takeWhile c mem
  · rintro ⟨stops, run, all, rfl⟩
    rw [List.dropWhile_append_of_pos all]
    cases rest with
    | nil => rfl
    | cons c rest => exact List.dropWhile_cons_of_neg (by simp [stops c rfl])

/-- Only blanks are removed at the end, and none is left there. -/
theorem trimEnd_eq_iff {text kept : List Char} :
    trimEnd text = kept ↔
      (∀ c ∈ kept.getLast?, isBlank c = false) ∧
        ∃ right, (∀ c ∈ right, isBlank c = true) ∧ text = kept ++ right := by
  rw [trimEnd, List.reverse_eq_iff, dropWhile_eq_iff, List.head?_reverse]
  refine and_congr_right fun _ => ⟨?_, ?_⟩
  · rintro ⟨run, blank, same⟩
    refine ⟨run.reverse, fun c mem => blank c (List.mem_reverse.1 mem), ?_⟩
    rw [← List.reverse_inj, same, List.reverse_append, List.reverse_reverse]
  · rintro ⟨right, blank, rfl⟩
    exact ⟨right.reverse, fun c mem => blank c (List.mem_reverse.1 mem), List.reverse_append⟩

/-- Only blanks are removed, at both ends, and none is left there. -/
theorem trim_eq_iff {text kept : List Char} :
    trim text = kept ↔
      (∀ c ∈ kept.head?, isBlank c = false) ∧ (∀ c ∈ kept.getLast?, isBlank c = false) ∧
        ∃ left right, (∀ c ∈ left, isBlank c = true) ∧ (∀ c ∈ right, isBlank c = true) ∧
          text = left ++ kept ++ right := by
  rw [trim, trimEnd_eq_iff]
  constructor
  · rintro ⟨last, right, rightBlank, dropped⟩
    obtain ⟨first, left, leftBlank, rfl⟩ := dropWhile_eq_iff.1 dropped
    refine ⟨fun c mem => first c ?_, last, left, right, leftBlank, rightBlank, by simp⟩
    rw [List.head?_append, Option.mem_def.1 mem]
    rfl
  · rintro ⟨first, last, left, right, leftBlank, rightBlank, rfl⟩
    cases kept with
    | nil =>
      -- a text of blanks is gone before its end is looked at
      have all : ∀ c ∈ left ++ right, isBlank c = true :=
        List.forall_mem_append.2 ⟨leftBlank, rightBlank⟩
      refine ⟨last, [], nofun, dropWhile_eq_iff.2 ⟨nofun, left ++ right, all, by simp⟩⟩
    | cons c kept =>
      refine ⟨last, right, rightBlank, dropWhile_eq_iff.2 ⟨?_, left, leftBlank, by simp⟩⟩
      exact first

end CellFormula
