import CellFormula.Proofs.Evaluation.Basic
import CellFormula.Proofs.Grid
import CellFormula.Proofs.Operator.Exact

/-!
# Functions of a range, address by address

A function of a range looks at occupied addresses alone. An address without a cell has no value, so
it makes no difference to visit them all.

Main statements: `Context.result_aggregate`, the function has the value that it has when every
address of the rectangle is visited; `Context.aggregate_spec`, which says so of expressions and
trees, and that only a mean depends on how the corners are written.
-/

namespace CellFormula

namespace Aggregate

/-- The numbers found at some addresses, in order. An address is dropped when there is no value, for
whatever reason, and when the value is no number. -/
def collect (resolve : Address → Except FormulaError Value) : List Address → List Value
  | [] => []
  | a :: rest =>
    match resolve a with
    | .error _ => collect resolve rest
    | .ok v => if v.isNumeric then v :: collect resolve rest else collect resolve rest

/-- A sum divided by the span of a range. Without a span, or with one that is zero, there is no
quotient. That of two integers is rounded down, and has to be an integer again. -/
def quotient (total : Value) : Option Integer → Except FormulaError Value
  | none => .error (.overflow .span)
  | some span =>
    if span = 0 then .error (.divisionByZero .emptySpan)
    else
      match total with
      | .integer n =>
        match Integer.ofInt? ⌊(n.toInt : ℚ) / span.toInt⌋ with
        | some q => .ok (.integer q)
        | none => .error (.overflow (.operands n .divide span))
      | .float x => .ok (.float (x / Float.ofInt span.toInt))
      | other => .error (.type (.total other.type))

/-- The value of the function on a range, all of whose addresses are visited, column by column. A
mean is the quotient of the sum and the span of the range. -/
def visit (resolve : Address → Except FormulaError Value) (fn : Aggregate) (range : Range) :
    Except FormulaError Value :=
  let numbers := collect resolve range.columns
  match fn with
  | max => max.fold numbers
  | min => min.fold numbers
  | sum => sum.fold numbers
  | mean => do
    let total ← sum.fold numbers
    quotient total range.spanProduct?

theorem collect_eq_filterMap (resolve : Address → Except FormulaError Value)
    (addresses : List Address) :
    collect resolve addresses = addresses.filterMap fun a => number? (resolve a) := by
  induction addresses with
  | nil => rfl
  | cons a rest ih =>
    rw [collect, List.filterMap_cons, ih]
    cases resolve a with
    | error e => rfl
    | ok v => cases numeric : v.isNumeric <;> simp [number?, numeric]

/-- Addresses without a value may be left out from the start. -/
theorem collect_filter {resolve : Address → Except FormulaError Value} {keep : Address → Bool}
    (fails : ∀ a, keep a = false → ∃ e, resolve a = .error e) (addresses : List Address) :
    collect resolve (addresses.filter keep) = collect resolve addresses := by
  induction addresses with
  | nil => rfl
  | cons a rest ih =>
    cases kept : keep a with
    | true =>
      rw [List.filter_cons_of_pos kept, collect, collect, ih]
    | false =>
      obtain ⟨e, failed⟩ := fails a kept
      rw [List.filter_cons_of_neg (by simp [kept]), ih, collect, failed]

/-- What the function folds are the numbers at the occupied addresses. -/
theorem result_evaluate (grid : Grid) (resolve : Address → Traced Value) (fn : Aggregate)
    (range : Range) :
    (fn.evaluate grid resolve range).result =
      fn.ofNumbers range (collect (fun a => (resolve a).result) (grid.occupiedIn range)) := by
  rw [evaluate, Traced.result_bind, result_numbersAt, collect_eq_filterMap]
  rfl

/-- The division of a mean is this quotient, errors included. -/
theorem meanOf_eq_quotient (total : Value) (span : Option Integer) :
    meanOf total span = quotient total span := by
  cases span with
  | none => rfl
  | some span =>
    by_cases zero : span = 0
    · rw [zero]
      rfl
    · have nonzero : span.toInt ≠ 0 := fun same => zero (Int64.toInt_inj.1 same)
      cases total with
      | integer n =>
        simp only [meanOf, quotient, floorDiv, fit, if_neg zero, if_neg nonzero,
          Integer.fdiv_eq_floor]
        cases Integer.ofInt? ⌊(n.toInt : ℚ) / span.toInt⌋ <;> rfl
      | float x => simp only [meanOf, quotient, if_neg zero, if_neg nonzero, toFloat]
      | boolean _ | string _ => simp only [meanOf, quotient, if_neg zero, if_neg nonzero]

theorem ofNumbers_collect (resolve : Address → Except FormulaError Value) (fn : Aggregate)
    (range : Range) :
    fn.ofNumbers range (collect resolve range.columns) = fn.visit resolve range := by
  cases fn with
  | mean => simp only [ofNumbers, visit, meanOf_eq_quotient]
  | max | min | sum => rfl

/-- Apart from a mean, the value depends only on the rectangle. -/
theorem visit_congr {resolve : Address → Except FormulaError Value} {fn : Aggregate}
    {range other : Range} (same : ∀ a, a ∈ other ↔ a ∈ range) (noMean : fn ≠ .mean) :
    fn.visit resolve other = fn.visit resolve range := by
  have columns : other.columns = range.columns := Range.columns_congr same
  cases fn with
  | mean => exact absurd rfl noMean
  | _ => rw [visit, visit, columns]

end Aggregate

namespace Context

theorem resolve_of_vacant {c : Context} {a : Address} (vacant : c.grid.contains a = false) :
    (c.resolve a).result = .error (.coordinates (.vacant a)) := by
  have absent : c.grid.lookup a = none := by simpa [Grid.contains] using vacant
  rw [resolve_of_refused (Entry.vacant absent).enter_eq]
  rfl

/-- A function of a range has the value that it has when all addresses are visited. -/
theorem result_aggregate (c : Context) (fn : Aggregate) (range : Range) :
    (fn.evaluate c.grid c.resolve range).result =
      fn.visit (fun a => (c.resolve a).result) range := by
  have vacant : ∀ a, c.grid.contains a = false → ∃ e, (c.resolve a).result = .error e :=
    fun a vacant => ⟨_, resolve_of_vacant vacant⟩
  rw [Aggregate.result_evaluate, ← Grid.filter_cells, Range.cells_eq_columns,
    Aggregate.collect_filter vacant, Aggregate.ofNumbers_collect]

/-- In every context a function of a range has the value that it has when each address of the
rectangle is visited and those are dropped that have no number. It has this value in an expression,
and in a tree whose corners name the corners of the range. So the greatest number, the least one and
the sum are the same for all ranges that cover the same rectangle. -/
theorem aggregate_spec (c : Context) (fn : Aggregate) (range : Range) :
    (c.evaluateExpr (.aggregate fn range)).result =
      fn.visit (fun a => (c.resolve a).result) range ∧
    (∀ start stop : Tree, start.corner = .ok range.start → stop.corner = .ok range.stop →
      (c.evaluateTree (.binary (.aggregate fn) start stop)).result =
        fn.visit (fun a => (c.resolve a).result) range) ∧
    ∀ other : Range, (∀ a, a ∈ other ↔ a ∈ range) → fn ≠ .mean →
      (c.evaluateExpr (.aggregate fn other)).result =
        (c.evaluateExpr (.aggregate fn range)).result := by
  refine ⟨c.result_aggregate fn range, ?_, ?_⟩
  · intro start stop first last
    rw [evaluateTree, Tree.result_evaluate_aggregate, first, last]
    exact c.result_aggregate fn range
  · intro other same noMean
    calc (c.evaluateExpr (.aggregate fn other)).result
      _ = fn.visit (fun a => (c.resolve a).result) other := c.result_aggregate fn other
      _ = fn.visit (fun a => (c.resolve a).result) range := Aggregate.visit_congr same noMean
      _ = (c.evaluateExpr (.aggregate fn range)).result := (c.result_aggregate fn range).symm

/-- The sum of a square is the same from either pair of opposite corners. -/
theorem aggregate_spec_square :
    let square : Range := ⟨⟨1, 1⟩, ⟨2, 2⟩⟩
    let other : Range := ⟨⟨2, 1⟩, ⟨1, 2⟩⟩
    let corners := (Tree.leaf .reference "\x7bA,1\x7d", Tree.leaf .reference "\x7bB,2\x7d")
    (corners.1.corner = .ok square.start ∧ corners.2.corner = .ok square.stop ∧
      ∀ c : Context, (c.evaluateTree (.binary (.aggregate .sum) corners.1 corners.2)).result =
        Aggregate.visit (fun a => (c.resolve a).result) .sum square) ∧
    (∀ a, a ∈ other ↔ a ∈ square) ∧
      ∀ c : Context, (c.evaluateExpr (.aggregate .sum other)).result =
        (c.evaluateExpr (.aggregate .sum square)).result := by
  intro square other corners
  have first : corners.1.corner = .ok square.start := rfl
  have last : corners.2.corner = .ok square.stop := rfl
  have same : ∀ a, a ∈ other ↔ a ∈ square := fun a => Iff.rfl
  exact ⟨⟨first, last, fun c => (aggregate_spec c .sum square).2.1 _ _ first last⟩, same,
    fun c => (aggregate_spec c .sum square).2.2 other same nofun⟩

end Context

end CellFormula
