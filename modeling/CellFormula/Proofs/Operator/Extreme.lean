import CellFormula.Operator.Fold
import CellFormula.Proofs.Float.Order

/-!
# The greatest and the least number

The fold that looks for an extreme compares integers exactly and floats exactly, but an integer with
a float only after the integer was rounded. These comparisons are not one order: an integer and a
float may compare as equal although they differ. The number that the fold holds is not beaten after
rounding, and not beaten exactly by an integer if it is one itself. Both together are kept.

Main statements: `Number.Holds.step`, one comparison keeps the invariant, and
`Number.exists_extreme`, so does the fold; `Number.Holds.exact`, what is not beaten by the invariant
is not beaten exactly, except where rounding makes numbers equal; `Number.Confused.exists_large`,
only large integers are such an exception; `Aggregate.extremes_spec`, so the greatest and the least
of some numbers are found, with that exception.
-/

namespace CellFormula

/-! ## Strict orderings -/

section

variable {α : Type} [LinearOrder α] {a b c : α} {wanted : Ordering}

theorem compare_ne_self (strict : wanted ≠ .eq) (a : α) : compare a a ≠ wanted := by
  rw [compare_eq_iff_eq.2 rfl]
  exact strict.symm

theorem compare_ne_of_eq (strict : wanted ≠ .eq) (won : compare a b = wanted) :
    compare b a ≠ wanted := by
  cases wanted with
  | eq => exact absurd rfl strict
  | lt =>
    rw [ne_eq, compare_lt_iff_lt]
    exact (compare_lt_iff_lt.1 won).asymm
  | gt =>
    rw [ne_eq, compare_gt_iff_gt]
    exact (compare_gt_iff_gt.1 won).asymm

theorem compare_ne_trans (strict : wanted ≠ .eq) (first : compare a b ≠ wanted)
    (second : compare b c ≠ wanted) : compare a c ≠ wanted := by
  cases wanted with
  | eq => exact absurd rfl strict
  | lt =>
    rw [ne_eq, compare_lt_iff_lt, not_lt] at *
    exact second.trans first
  | gt =>
    rw [ne_eq, compare_gt_iff_gt, not_lt] at *
    exact first.trans second

theorem compare_ne_swap : compare a b ≠ wanted ↔ compare b a ≠ wanted.swap := by
  have turned : compare a b = (compare b a).swap := by
    rw [← cmp_eq_compare, ← cmp_eq_compare, cmp_swap]
  rw [turned]
  cases compare b a <;> cases wanted <;> decide

end

theorem compare_toFloat_ne {m n : Integer} {wanted : Ordering} (strict : wanted ≠ .eq)
    (unbeaten : compare m.toInt n.toInt ≠ wanted) :
    compare (exactFloat (toFloat m)) (exactFloat (toFloat n)) ≠ wanted := by
  cases wanted with
  | eq => exact absurd rfl strict
  | lt =>
    rw [ne_eq, compare_lt_iff_lt, not_lt] at *
    exact toFloat_mono unbeaten
  | gt =>
    rw [ne_eq, compare_gt_iff_gt, not_lt] at *
    exact toFloat_mono unbeaten

/-! ## Numbers -/

/-- What a range is searched for: integers, and floats that are numbers. -/
inductive Number where
  | integer (n : Integer)
  | float (x : Float) (number : x.isNaN = false)

namespace Number

def value : Number → Value
  | integer n => .integer n
  | float x _ => .float x

/-- The exact value of a number. -/
def exact : Number → Extended
  | integer n => .ofRat n.toInt
  | float x _ => exactFloat x

/-- The exact value of the float that a number is compared as. -/
def rounded : Number → Extended
  | integer n => exactFloat (toFloat n)
  | float x _ => exactFloat x

/-- How two numbers compare. -/
def order : Number → Number → Ordering
  | integer m, integer n => compare m.toInt n.toInt
  | a, b => compare a.rounded b.rounded

theorem compareNumbers_eq (a b : Number) : compareNumbers a.value b.value = some (a.order b) := by
  cases a with
  | integer m =>
    cases b with
    | integer n => rfl
    | float y right => exact compareFloats_eq (isNaN_toFloat m) right
  | float x left =>
    cases b with
    | integer n => exact compareFloats_eq left (isNaN_toFloat n)
    | float y right => exact compareFloats_eq left right

/-- The better one of the number held and the next number. -/
def better (wanted : Ordering) (held next : Number) : Number :=
  if next.order held = wanted then next else held

theorem value_better (wanted : Ordering) (held next : Number) :
    (better wanted held next).value =
      if compareNumbers next.value held.value = some wanted then next.value else held.value := by
  simp only [compareNumbers_eq, Option.some.injEq, better]
  split <;> rfl

theorem better_eq_or_eq (wanted : Ordering) (held next : Number) :
    better wanted held next = held ∨ better wanted held next = next := by
  unfold better
  split
  · exact Or.inr rfl
  · exact Or.inl rfl

/-! ## The invariant of the fold -/

/-- The number held is not beaten by another one. -/
structure Holds (wanted : Ordering) (held other : Number) : Prop where
  rounded : compare other.rounded held.rounded ≠ wanted
  integers : ∀ m n, other = integer m → held = integer n → compare m.toInt n.toInt ≠ wanted

namespace Holds

variable {wanted : Ordering} {held other next : Number}

theorem refl (strict : wanted ≠ .eq) (number : Number) : Holds wanted number number := by
  refine ⟨compare_ne_self strict _, ?_⟩
  rintro m n rfl same
  cases same
  exact compare_ne_self strict _

/-- A number that does not win is not above the one that is held. -/
theorem of_order_ne (strict : wanted ≠ .eq) (lost : next.order held ≠ wanted) :
    Holds wanted held next := by
  cases next with
  | integer m =>
    cases held with
    | integer n =>
      refine ⟨compare_toFloat_ne strict lost, ?_⟩
      rintro _ _ ⟨⟩ ⟨⟩
      exact lost
    | float y right => exact ⟨lost, fun _ _ _ same => by cases same⟩
  | float x left => exact ⟨lost, fun _ _ same => by cases same⟩

/-- A number that wins takes the place of the one that was held. -/
theorem of_order_eq (strict : wanted ≠ .eq) (won : next.order held = wanted)
    (holds : Holds wanted held other) : Holds wanted next other := by
  have above : compare held.rounded next.rounded ≠ wanted := by
    cases next with
    | integer m =>
      cases held with
      | integer n => exact compare_toFloat_ne strict (compare_ne_of_eq strict won)
      | float y right => exact compare_ne_of_eq strict won
    | float x left => exact compare_ne_of_eq strict won
  refine ⟨compare_ne_trans strict holds.rounded above, ?_⟩
  rintro i m rfl rfl
  cases held with
  | integer n =>
    have below := compare_ne_of_eq strict won
    exact compare_ne_trans strict (holds.integers i n rfl rfl) below
  | float y right =>
    -- the integer that wins against a float does so after rounding, and rounding keeps the order
    intro beaten
    have below := compare_toFloat_ne strict (compare_ne_of_eq strict beaten)
    exact compare_ne_trans strict below holds.rounded won

/-- One comparison keeps what holds of the numbers seen before, and adds the number it looks at. -/
theorem step (strict : wanted ≠ .eq) (seen : Holds wanted held other ∨ other = next) :
    Holds wanted (better wanted held next) other := by
  unfold better
  split
  · next won =>
    rcases seen with holds | rfl
    · exact holds.of_order_eq strict won
    · exact refl strict other
  · next lost =>
    rcases seen with holds | rfl
    · exact holds
    · exact of_order_ne strict lost

end Holds

/-- The fold ends with one of the numbers, and no number beats it. -/
theorem exists_extreme {wanted : Ordering} (strict : wanted ≠ .eq) (held : Number)
    (rest : List Number) :
    ∃ final ∈ held :: rest, extreme wanted held.value (rest.map value) = final.value ∧
      ∀ other, Holds wanted held other ∨ other ∈ rest → Holds wanted final other := by
  induction rest generalizing held with
  | nil =>
    refine ⟨held, List.mem_cons_self, rfl, ?_⟩
    rintro other (holds | none)
    · exact holds
    · cases none
  | cons next rest ih =>
    obtain ⟨final, mem, result, all⟩ := ih (better wanted held next)
    refine ⟨final, ?_, ?_, fun other seen => all other ?_⟩
    · rcases List.mem_cons.1 mem with rfl | later
      · rcases better_eq_or_eq wanted held next with same | same <;> simp [same]
      · exact List.mem_cons_of_mem _ (List.mem_cons_of_mem _ later)
    · rw [List.map_cons, extreme, ← value_better, result]
    · rcases seen with holds | found
      · exact Or.inl (Holds.step strict (Or.inl holds))
      · rcases List.mem_cons.1 found with rfl | later
        · exact Or.inl (Holds.step strict (Or.inr rfl))
        · exact Or.inr later

/-! ## Exact values -/

/-- An integer and a float that are taken for equal although they differ: no float is equal to the
integer, and it is rounded to that one. -/
def Confused : Number → Number → Prop
  | integer n, float x _ | float x _, integer n =>
    exactFloat (toFloat n) = exactFloat x ∧ exactFloat x ≠ .ofRat n.toInt
  | integer _, integer _ | float _ _, float _ _ => False

/-- What does not win after rounding does not win exactly, unless rounding makes it equal. -/
theorem compare_ofRat_ne {wanted : Ordering} {n : Integer} {x : Float} (strict : wanted ≠ .eq)
    (number : x.isNaN = false)
    (unbeaten : compare (exactFloat (toFloat n)) (exactFloat x) ≠ wanted) :
    compare (.ofRat n.toInt) (exactFloat x) ≠ wanted ∨
      exactFloat (toFloat n) = exactFloat x ∧ exactFloat x ≠ .ofRat n.toInt := by
  by_cases beaten : compare (Extended.ofRat n.toInt) (exactFloat x) = wanted
  · right
    cases wanted with
    | eq => exact absurd rfl strict
    | lt =>
      have less := compare_lt_iff_lt.1 beaten
      rw [ne_eq, compare_lt_iff_lt, not_lt] at unbeaten
      exact ⟨(toFloat_le number less.le).antisymm unbeaten, less.ne'⟩
    | gt =>
      have more := compare_gt_iff_gt.1 beaten
      rw [ne_eq, compare_gt_iff_gt, not_lt] at unbeaten
      exact ⟨unbeaten.antisymm (le_toFloat number more.le), more.ne⟩
  · exact Or.inl beaten

/-- A number that is not beaten is not beaten exactly, unless by one it is confused with. -/
theorem Holds.exact {wanted : Ordering} {held other : Number} (strict : wanted ≠ .eq)
    (holds : Holds wanted held other) :
    compare other.exact held.exact ≠ wanted ∨ Confused other held := by
  cases other with
  | integer m =>
    cases held with
    | integer n =>
      have casts : compare (m.toInt : ℚ) n.toInt = compare m.toInt n.toInt := by
        rw [← cmp_eq_compare, ← cmp_eq_compare, Int.cast_strictMono.cmp_map_eq]
      left
      rw [Number.exact, Number.exact, Extended.compare_ofRat, casts]
      exact holds.integers m n rfl rfl
    | float y right => exact compare_ofRat_ne strict right holds.rounded
  | float x left =>
    cases held with
    | integer n =>
      have turned : wanted.swap ≠ .eq := by cases wanted <;> simp_all
      rcases compare_ofRat_ne turned left (compare_ne_swap.1 holds.rounded) with unbeaten | confused
      · exact Or.inl (compare_ne_swap.2 unbeaten)
      · exact Or.inr confused
    | float y right => exact Or.inl holds.rounded

/-- Only integers of more than 53 binary digits are confused with floats. -/
theorem Confused.exists_large {a b : Number} (confused : Confused a b) :
    ∃ n : Integer, (a = integer n ∨ b = integer n) ∧ 2 ^ 53 < n.toInt.natAbs := by
  have large {n : Integer} {x : Float} (rounded : exactFloat (toFloat n) = exactFloat x)
      (apart : exactFloat x ≠ .ofRat n.toInt) : 2 ^ 53 < n.toInt.natAbs := by
    refine not_le.1 fun small => apart ?_
    rw [← rounded, exactFloat_toFloat_of_small small]
  cases a with
  | integer n =>
    cases b with
    | integer m => exact confused.elim
    | float x number => exact ⟨n, Or.inl rfl, large confused.1 confused.2⟩
  | float x number =>
    cases b with
    | integer n => exact ⟨n, Or.inr rfl, large confused.1 confused.2⟩
    | float y other => exact confused.elim

/-- The extreme of some numbers is one of them, and none beats it exactly, unless by being confused
with it. -/
theorem exists_best {wanted : Ordering} (strict : wanted ≠ .eq) (first : Number)
    (rest : List Number) :
    ∃ best ∈ first :: rest, extreme wanted first.value (rest.map value) = best.value ∧
      ∀ other ∈ first :: rest, compare other.exact best.exact ≠ wanted ∨ Confused other best := by
  obtain ⟨best, mem, result, all⟩ := exists_extreme strict first rest
  refine ⟨best, mem, result, fun other found => (all other ?_).exact strict⟩
  rcases List.mem_cons.1 found with rfl | later
  · exact Or.inl (Holds.refl strict other)
  · exact Or.inr later

end Number

namespace Aggregate

open Number

/-- The greatest and the least of some numbers are among them, and are returned as they stand. No
other number has a greater or a smaller exact value, unless rounding confuses it with the one
returned. -/
theorem extremes_spec (first : Number) (rest : List Number) :
    (∃ best ∈ first :: rest, max.fold ((first :: rest).map Number.value) = .ok best.value ∧
      ∀ other ∈ first :: rest, other.exact ≤ best.exact ∨ Confused other best) ∧
    (∃ best ∈ first :: rest, min.fold ((first :: rest).map Number.value) = .ok best.value ∧
      ∀ other ∈ first :: rest, best.exact ≤ other.exact ∨ Confused other best) := by
  obtain ⟨greatest, found, result, top⟩ := exists_best (by decide : Ordering.gt ≠ .eq) first rest
  obtain ⟨least, there, outcome, bottom⟩ := exists_best (by decide : Ordering.lt ≠ .eq) first rest
  refine ⟨⟨greatest, found, congrArg Except.ok result, ?_⟩,
    ⟨least, there, congrArg Except.ok outcome, ?_⟩⟩
  · simpa only [ne_eq, compare_gt_iff_gt, not_lt] using top
  · simpa only [ne_eq, compare_lt_iff_lt, not_lt] using bottom

/-- A float, and the integer after it, which is rounded to it. -/
def roundedPair : List Number :=
  [.float 9007199254740992.0 rfl, .integer 9007199254740993]

/-- The fold may hold a float while an integer is greater. -/
theorem max_not_exact :
    ¬ ∃ best ∈ roundedPair, max.fold (roundedPair.map Number.value) = .ok best.value ∧
      ∀ other ∈ roundedPair, other.exact ≤ best.exact := by
  rintro ⟨best, -, result, greatest⟩
  have kept : max.fold (roundedPair.map Number.value) = .ok (.float 9007199254740992.0) := rfl
  have value : best.value = .float 9007199254740992.0 := Except.ok.inj (result.symm.trans kept)
  have above := greatest (.integer 9007199254740993) (by simp [roundedPair])
  cases best with
  | integer n => cases value
  | float x number =>
    obtain rfl : x = 9007199254740992.0 := Value.float.inj value
    have exact : exactFloat 9007199254740992.0 = .ofRat ((2 ^ 52 : Nat) * 2 ^ (1 : ℤ)) :=
      exactFloat_eq number
    have integer : (9007199254740993 : Integer).toInt = 9007199254740993 := rfl
    rw [Number.exact, Number.exact, exact, integer, Extended.ofRat_le_iff] at above
    norm_num at above

end Aggregate

end CellFormula
