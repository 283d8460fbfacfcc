import CellFormula.Proofs.Evaluation.Strings
import CellFormula.Proofs.Evaluation.Sum
import CellFormula.Proofs.Operator.Words
import CellFormula.Proofs.Span

/-!
# Means

A mean is the sum of a range divided by the span of the range, the product of its width and its
height between the corners as written. The sum is looked at first, then the span, and only then is
there a division. So a mean fails in one way after the other: with the sum, without a span, by an
empty span, and by the one quotient of integers that is no integer.

Main statements: `Context.result_mean`, a mean in terms of the sum over the same corners;
`Integer.fits_floor_iff`, which quotients fit; `Context.mean_spec`, what becomes of the mean in each
case; `Context.span_spec`, which spans are missing between corners that are too far apart, and the
means with them.
-/

namespace CellFormula

open Integer

/-! ## Quotients -/

/-- The only quotient of integers that does not fit is that of the least one by -1. -/
theorem Integer.fits_floor_iff {n i : Integer} (nonzero : i.toInt ≠ 0) :
    Fits ⌊(n.toInt : ℚ) / i.toInt⌋ ↔ ¬ (n = Int64.minValue ∧ i.toInt = -1) := by
  have bounds := fits_iff.1 (fits_toInt n)
  have least : n = Int64.minValue ↔ n.toInt = -2 ^ 63 := Int64.toInt_inj.symm
  have magnitude : (n.toInt.tdiv i.toInt).natAbs = n.toInt.natAbs / i.toInt.natAbs :=
    Int.natAbs_tdiv _ _
  rw [← fdiv_eq_floor, fits_fdiv_iff nonzero, fits_iff, least]
  obtain one | opposite | two : i.toInt = 1 ∨ i.toInt = -1 ∨ 2 ≤ i.toInt.natAbs := by omega
  · rw [one, Int.tdiv_one]
    omega
  · rw [opposite, Int.tdiv_neg, Int.tdiv_one]
    omega
  · have half : n.toInt.natAbs / i.toInt.natAbs ≤ n.toInt.natAbs / 2 :=
      Nat.div_le_div_left two (by decide)
    omega

/-! ## Dividing a sum by a span -/

section Dividing

variable {total : Value} {n i : Integer} {p : Int}

theorem meanOf_of_not_fits (unfit : ¬ Fits p) :
    meanOf total (ofInt? p) = .error (.overflow .span) := by
  rw [ofInt?_eq_none_iff.2 unfit]
  rfl

theorem meanOf_zero : meanOf total (ofInt? 0) = .error (.divisionByZero .emptySpan) := rfl

theorem meanOf_integer (nonzero : i.toInt ≠ 0) :
    meanOf (.integer n) (ofInt? i.toInt) = (floorDiv n i).map .integer := by
  simp only [ofInt?_toInt, meanOf, nonzero, if_false]

theorem meanOf_float (nonzero : i.toInt ≠ 0) (x : Float) :
    meanOf (.float x) (ofInt? i.toInt) = .ok (.float (x / toFloat i)) := by
  simp only [ofInt?_toInt, meanOf, nonzero, if_false]

/-- An integer is divided and rounded down. -/
theorem exists_meanOf_integer (nonzero : i.toInt ≠ 0)
    (other : ¬ (n = Int64.minValue ∧ i.toInt = -1)) :
    ∃ q : Integer, q.toInt = ⌊(n.toInt : ℚ) / i.toInt⌋ ∧
      meanOf (.integer n) (ofInt? i.toInt) = .ok (.integer q) := by
  obtain ⟨q, same⟩ := exists_toInt_eq ((fits_floor_iff nonzero).2 other)
  refine ⟨q, same, ?_⟩
  rw [meanOf_integer nonzero, (isExact_floorDiv nonzero).1 q same]
  rfl

theorem meanOf_least (opposite : i.toInt = -1) :
    meanOf (.integer Int64.minValue) (ofInt? i.toInt) =
      .error (.overflow (.operands Int64.minValue .divide (-1))) := by
  obtain rfl : i = -1 := Int64.toInt_inj.1 opposite
  rfl

/-- A number is divided by a span that is not empty. Only one quotient is no integer. -/
theorem meanOf_cases (numeric : total.isNumeric = true) (fits : Fits p) (nonzero : p ≠ 0) :
    (∃ n, total = .integer n ∧
      if n = Int64.minValue ∧ p = -1 then
        meanOf total (ofInt? p) = .error (.overflow (.operands Int64.minValue .divide (-1)))
      else ∃ q : Integer, q.toInt = ⌊(n.toInt : ℚ) / p⌋ ∧
        meanOf total (ofInt? p) = .ok (.integer q)) ∨
    ∃ x, total = .float x ∧ meanOf total (ofInt? p) = .ok (.float (x / Float.ofInt p)) := by
  obtain ⟨i, rfl⟩ := exists_toInt_eq fits
  cases total with
  | integer n =>
    refine Or.inl ⟨n, rfl, ?_⟩
    split
    · next least =>
      obtain ⟨rfl, opposite⟩ := least
      exact meanOf_least opposite
    · next other => exact exists_meanOf_integer nonzero other
  | float x => exact Or.inr ⟨x, rfl, meanOf_float nonzero x⟩
  | boolean | string => cases numeric

/-- A division by zero is reported for an empty span, and for no other. -/
theorem meanOf_eq_divisionByZero_iff (numeric : total.isNumeric = true) :
    (∃ cause, meanOf total (ofInt? p) = .error (.divisionByZero cause)) ↔ p = 0 := by
  refine ⟨?_, fun zero => ⟨_, zero ▸ meanOf_zero⟩⟩
  rintro ⟨cause, failed⟩
  by_contra nonzero
  by_cases fits : Fits p
  · rcases meanOf_cases numeric fits nonzero with ⟨n, _, divided⟩ | ⟨x, _, divided⟩
    · split at divided
      · cases divided.symm.trans failed
      · obtain ⟨q, _, quotient⟩ := divided
        cases quotient.symm.trans failed
    · cases divided.symm.trans failed
  · cases (meanOf_of_not_fits fits).symm.trans failed

end Dividing

/-! ## Means of ranges -/

namespace Context

/-- A mean is the sum over the same corners, divided by their span. -/
theorem result_mean (c : Context) (range : Range) :
    (c.evaluateExpr (.aggregate .mean range)).result = (do
      let total ← (c.evaluateExpr (.aggregate .sum range)).result
      meanOf total range.spanProduct?) := by
  simp only [evaluateExpr, Expr.evaluate, Aggregate.result_evaluate]
  rfl

/-- A sum depends on which addresses are summed up, not on the corners they are given by. -/
theorem result_sum_congr (c : Context) {range other : Range} (same : ∀ a, a ∈ other ↔ a ∈ range) :
    (c.evaluateExpr (.aggregate .sum other)).result =
      (c.evaluateExpr (.aggregate .sum range)).result := by
  calc (c.evaluateExpr (.aggregate .sum other)).result
    _ = Aggregate.sum.visit (fun a => (c.resolve a).result) other := c.result_aggregate .sum other
    _ = Aggregate.sum.visit (fun a => (c.resolve a).result) range :=
      Aggregate.visit_congr same nofun
    _ = (c.evaluateExpr (.aggregate .sum range)).result := (c.result_aggregate .sum range).symm

/-- The mean over two corners that can be referred to. If the sum over them fails, the mean fails
likewise. Otherwise it fails with a division by zero exactly if their span is zero, with an overflow
if the span is no integer, and else it is the sum divided by the span. An integer is rounded down,
and overflows only if it is the least one and the span is -1. So a single row or a single column has
no mean. From the other two corners of the rectangle the sum is the same and the span the opposite
one. -/
theorem mean_spec (c : Context) {range : Range} (first : range.start.Referable)
    (last : range.stop.Referable) :
    let total := (c.evaluateExpr (.aggregate .sum range)).result
    let mean := (c.evaluateExpr (.aggregate .mean range)).result
    let p := range.span
    (∀ e, total = .error e → mean = .error e) ∧
    (∀ v, total = .ok v →
      ((∃ cause, mean = .error (.divisionByZero cause)) ↔ p = 0) ∧
      (¬ Fits p → mean = .error (.overflow .span)) ∧
      (Fits p → p ≠ 0 →
        (∃ n, v = .integer n ∧
          if n = Int64.minValue ∧ p = -1 then
            mean = .error (.overflow (.operands Int64.minValue .divide (-1)))
          else ∃ q : Integer, q.toInt = ⌊(n.toInt : ℚ) / p⌋ ∧ mean = .ok (.integer q)) ∨
        ∃ x, v = .float x ∧ mean = .ok (.float (x / Float.ofInt p)))) ∧
    (range.start.x = range.stop.x ∨ range.start.y = range.stop.y → ∀ v, mean ≠ .ok v) ∧
    (∀ other ∈ [range.mirrorX, range.mirrorY],
      other.span = -p ∧ (c.evaluateExpr (.aggregate .sum other)).result = total) ∧
    ∀ (fn : Aggregate) (left right : Tree), left.corner = .ok range.start →
      right.corner = .ok range.stop →
      (c.evaluateTree (.binary (.aggregate fn) left right)).result =
        (c.evaluateExpr (.aggregate fn range)).result := by
  intro total mean p
  have divided : mean = (do meanOf (← total) (ofInt? p)) := by
    rw [← Range.spanProduct?_of_referable first last]
    exact c.result_mean range
  have ofValue : ∀ v, total = .ok v → mean = meanOf v (ofInt? p) := by
    intro v value
    rw [divided, value, ok_bind]
  refine ⟨?_, ?_, ?_, ?_, ?_⟩
  · intro e failed
    rw [divided, failed]
    rfl
  · intro v value
    have numeric : v.isNumeric = true := Aggregate.isNumeric_evaluate value
    rw [ofValue v value]
    exact ⟨meanOf_eq_divisionByZero_iff numeric, meanOf_of_not_fits, meanOf_cases numeric⟩
  · intro flat v
    cases value : total with
    | error e => rw [divided, value]; nofun
    | ok sum =>
      have empty : p = 0 := Range.span_of_flat flat
      rw [ofValue sum value, empty, meanOf_zero]
      nofun
  · intro other mem
    simp only [List.mem_cons, List.not_mem_nil, or_false] at mem
    rcases mem with rfl | rfl
    · exact ⟨range.span_mirrorX, c.result_sum_congr fun _ => Range.mem_mirrorX⟩
    · exact ⟨range.span_mirrorY, c.result_sum_congr fun _ => Range.mem_mirrorY⟩
  · intro fn left right start stop
    rw [evaluateTree, Tree.result_evaluate_aggregate, start, stop]
    rfl

/-- Over two cells with 4 and 8, from the upper right corner to the lower left one, the mean is -12.
Over the left column alone there is none. -/
theorem mean_spec_mirrored :
    let four : Address := ⟨2, 1⟩
    let eight : Address := ⟨1, 2⟩
    let range : Range := ⟨four, eight⟩
    let column : Range := ⟨⟨1, 1⟩, eight⟩
    let c := (Session.mk (((∅ : Grid).insert four "4").insert eight "8") 1).root
    (four.Referable ∧ eight.Referable ∧ column.start.Referable) ∧ range.span = -1 ∧
      (c.evaluateExpr (.aggregate .sum range)).result = .ok (.integer 12) ∧
      (c.evaluateExpr (.aggregate .mean range)).result = .ok (.integer (-12)) ∧
      (c.evaluateExpr (.aggregate .sum range.mirrorX)).result = .ok (.integer 12) ∧
      ∀ v, (c.evaluateExpr (.aggregate .mean column)).result ≠ .ok v := by
  intro four eight range column c
  have isFour : IsWordOf .integer "4".toList := by decide
  have isEight : IsWordOf .integer "8".toList := by decide
  have foundFour : c.found four = .ok (.integer 4) :=
    found_root rfl ⟨_, (Spells.atom rfl isFour.lexes).group.ofText_eq, .literal (.integer rfl)⟩
      Nat.one_pos
  have foundEight : c.found eight = .ok (.integer 8) :=
    found_root rfl ⟨_, (Spells.atom rfl isEight.lexes).group.ofText_eq, .literal (.integer rfl)⟩
      Nat.one_pos
  have foundFirst : c.found ⟨1, 1⟩ = .error (.coordinates (.vacant ⟨1, 1⟩)) := resolve_of_vacant rfl
  have foundLast : c.found ⟨2, 2⟩ = .error (.coordinates (.vacant ⟨2, 2⟩)) := resolve_of_vacant rfl
  have visited : range.columns = [⟨1, 1⟩, eight, four, ⟨2, 2⟩] := by decide
  have noFloat : ∀ a ∈ range, ∀ x, c.found a ≠ .ok (.float x) := by
    intro a mem x
    have inside := Range.mem_columns.2 mem
    simp only [visited, List.mem_cons, List.not_mem_nil, or_false] at inside
    rcases inside with rfl | rfl | rfl | rfl
    · rw [foundFirst]; nofun
    · rw [foundEight]; nofun
    · rw [foundFour]; nofun
    · rw [foundLast]; nofun
  have numbers : Aggregate.integers c.found range = [8, 4] := by
    rw [Aggregate.integers, visited]
    simp only [List.filterMap_cons, List.filterMap_nil, foundFirst, foundEight, foundFour,
      foundLast, Aggregate.integer?]
  have total : (c.evaluateExpr (.aggregate .sum range)).result = .ok (.integer 12) := by
    rw [result_sum noFloat, numbers]
    rfl
  have first : four.Referable := by decide
  have last : eight.Referable := by decide
  have top : column.start.Referable := by decide
  have span : range.span = -1 := by decide
  obtain ⟨_, ofValue, _, mirrored, _⟩ := @mean_spec c range first last
  obtain ⟨_, _, flat, _⟩ := @mean_spec c column top last
  have mean : (c.evaluateExpr (.aggregate .mean range)).result = .ok (.integer (-12)) := by
    rcases (ofValue _ total).2.2 (by decide) (by decide) with ⟨n, same, quotient⟩ | ⟨x, other, _⟩
    · cases same
      rw [if_neg (by decide)] at quotient
      obtain ⟨q, floor, mean⟩ := quotient
      have whole : q.toInt = (-12 : Integer).toInt := by
        rw [floor, span, ← fdiv_eq_floor]
        rfl
      rw [mean, Int64.toInt_inj.1 whole]
    · cases other
  have other := (mirrored range.mirrorX List.mem_cons_self).2
  exact ⟨⟨first, last, top⟩, span, total, mean, other.trans total, flat (Or.inl rfl)⟩

/-! ## Spans that are missing -/

/-- A mean over corners too far apart fails as soon as there is a sum to divide. -/
theorem result_mean_of_farApart (c : Context) {range : Range} (far : range.FarApart) :
    (c.evaluateExpr (.aggregate .mean range)).result = (do
      let _ ← (c.evaluateExpr (.aggregate .sum range)).result
      .error (.overflow .span)) := by
  rw [c.result_mean range, Range.spanProduct?_of_farApart far]
  rfl

/-- A mean over a single column or row meets an empty span, if the span is not missing. -/
theorem result_mean_of_flat (c : Context) {range : Range} (near : ¬ range.FarApart)
    (flat : range.Flat) :
    (c.evaluateExpr (.aggregate .mean range)).result = (do
      let _ ← (c.evaluateExpr (.aggregate .sum range)).result
      .error (.divisionByZero .emptySpan)) := by
  rw [c.result_mean range, Range.spanProduct?_of_near near, Range.span_of_flat flat]
  rfl

/-- The sum is zero where no cell is stored. -/
theorem result_sum_of_vacant {c : Context} {range : Range}
    (vacant : ∀ a ∈ range, c.grid.contains a = false) :
    (c.evaluateExpr (.aggregate .sum range)).result = .ok (.integer 0) := by
  have nothing : c.grid.occupiedIn range = [] := by
    refine List.eq_nil_iff_forall_not_mem.2 fun a mem => ?_
    obtain ⟨occupied, inside⟩ := Grid.mem_occupiedIn.1 mem
    rw [vacant a inside] at occupied
    cases occupied
  rw [evaluateExpr, Expr.evaluate, Aggregate.result_evaluate, nothing]
  rfl

/-- Unless its corners are too far apart, a range has its exact span if that is an integer, and
otherwise none; a mean over a single column or row then meets an empty span, once there is a sum.
Corners too far apart have no span whatever, and the mean overflows, once there is a sum. This loses
the spans of single columns and rows, which are zero, and those of `2 ^ 63` columns or rows with one
step back the other way, which are `-2 ^ 63`; no other one would fit. Between corners that a formula
can name none is lost. -/
theorem span_spec (c : Context) (range : Range) :
    let total := (c.evaluateExpr (.aggregate .sum range)).result
    let mean := (c.evaluateExpr (.aggregate .mean range)).result
    (¬ range.FarApart →
      (∀ i, range.spanProduct? = some i ↔ i.toInt = range.span) ∧
      (range.spanProduct? = none ↔ ¬ Fits range.span) ∧
      (range.Flat → mean = total.bind fun _ => .error (.divisionByZero .emptySpan))) ∧
    (range.FarApart →
      range.spanProduct? = none ∧ (mean = total.bind fun _ => .error (.overflow .span)) ∧
      (Fits range.span ↔ range.Flat ∨
        range.width = 2 ^ 63 ∧ range.height = -1 ∨ range.width = -1 ∧ range.height = 2 ^ 63)) ∧
    (range.start.Referable → range.stop.Referable → ¬ range.FarApart) := by
  intro total mean
  refine ⟨fun near => ?_, fun far => ?_, Range.not_farApart_of_referable⟩
  · rw [Range.spanProduct?_of_near near]
    exact ⟨fun i => ofInt?_eq_some_iff, ofInt?_eq_none_iff, c.result_mean_of_flat near⟩
  · exact ⟨Range.spanProduct?_of_farApart far, c.result_mean_of_farApart far,
      Range.fits_span_iff far⟩

/-- The longest row that has a span, a rectangle one column wider whose span would be the least
integer, and the rectangle of all that formulas can name. -/
theorem span_spec_longest :
    let row : Range := ⟨⟨-1, 7⟩, ⟨Int64.maxValue - 1, 7⟩⟩
    let wider : Range := ⟨⟨-1, 8⟩, ⟨Int64.maxValue, 7⟩⟩
    let named : Range := ⟨⟨1, 0⟩, ⟨Int64.maxValue, Int64.maxValue⟩⟩
    let c := (Session.empty 1).root
    (¬ row.FarApart ∧ row.Flat ∧ row.width = Int64.maxValue.toInt ∧ row.spanProduct? = some 0 ∧
      (c.evaluateExpr (.aggregate .mean row)).result = .error (.divisionByZero .emptySpan)) ∧
    (wider.FarApart ∧ wider.span = Int64.minValue.toInt ∧ Fits wider.span ∧
      wider.spanProduct? = none ∧
      (c.evaluateExpr (.aggregate .mean wider)).result = .error (.overflow .span)) ∧
    (named.start.Referable ∧ named.stop.Referable ∧ ¬ named.FarApart) := by
  intro row wider named c
  have total : ∀ range, (c.evaluateExpr (.aggregate .sum range)).result = .ok (.integer 0) :=
    fun _ => result_sum_of_vacant fun _ _ => rfl
  have near : ¬ row.FarApart := by decide
  have flat : row.Flat := by decide
  have far : wider.FarApart := by decide
  have first : named.start.Referable := by decide
  have last : named.stop.Referable := by decide
  obtain ⟨exact, _, divided⟩ := (span_spec c row).1 near
  obtain ⟨absent, overflows, lost⟩ := (span_spec c wider).2.1 far
  rw [total] at divided overflows
  refine ⟨⟨near, flat, by decide, (exact 0).2 (by decide), divided flat⟩,
    ⟨far, by decide, lost.2 (by decide), absent, overflows⟩, first, last, ?_⟩
  exact (span_spec c named).2.2 first last

/-- A row that is too long to have a width has no span either, although the span of a row is zero.
The mean over it overflows instead of meeting an empty span. -/
theorem row_overflows :
    let row : Range := ⟨⟨Int64.minValue, 0⟩, ⟨0, 0⟩⟩
    let c := (Session.empty 1).root
    row.start.y = row.stop.y ∧ row.span = 0 ∧ Fits 0 ∧ row.spanProduct? = none ∧
      (c.evaluateExpr (.aggregate .sum row)).result = .ok (.integer 0) ∧
      (c.evaluateExpr (.aggregate .mean row)).result = .error (.overflow .span) := by
  intro row c
  have far : row.FarApart := by decide
  have total : (c.evaluateExpr (.aggregate .sum row)).result = .ok (.integer 0) :=
    result_sum_of_vacant fun _ _ => rfl
  refine ⟨rfl, by decide, by decide, Range.spanProduct?_of_farApart far, total, ?_⟩
  rw [result_mean_of_farApart c far, total]
  rfl

end Context

end CellFormula
