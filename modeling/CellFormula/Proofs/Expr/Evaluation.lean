import CellFormula.Proofs.Evaluation.Basic
import CellFormula.Proofs.Expr.Text
import CellFormula.Session

/-!
# Evaluating an expression through its text

An expression is evaluated as it stands, and a stored one as the tree of its text, whose literals
are read again. Both ways give the same result.

Main statements: `Expr.result_evaluate_tree`, the tree of an expression evaluates like the
expression; `Expr.result_evaluate_text`, so does the text in every context, and the cell where it is
stored.
-/

namespace CellFormula

/-- The value has a literal that evaluates to it. For the negative zero there is none: it is written
as a difference of zeros, and that is the positive zero. -/
def Value.Writable (v : Value) : Prop := v ≠ .float (-0.0)

instance (v : Value) : Decidable v.Writable := inferInstanceAs (Decidable (v ≠ .float (-0.0)))

/-! ## Reading literals -/

theorem readInteger_ofNat {n : Integer} (nonneg : 0 ≤ n.toInt) :
    Value.readInteger (Numeral.ofNat n.toInt.natAbs) = .ok (.integer n) := by
  have dark : ∀ c ∈ Numeral.digits n.toInt.natAbs, isBlank c = false :=
    fun c mem => isBlank_of_isDigit (Numeral.isDigit_of_mem_digits mem)
  rw [Value.readInteger, Numeral.ofNat, String.toList_ofList, trim_of_dark dark,
    Integer.read_digits nonneg]

theorem Value.readFloat_floatText {x : Float} (finite : x.isFinite = true)
    (positive : isNegative x = false) : Value.readFloat (floatText x) = .ok (.float x) := by
  obtain ⟨_, _, dark, _⟩ := isWordOf_floatText finite positive
  rw [Value.readFloat, trim_of_dark dark, CellFormula.readFloat_floatText finite positive]

theorem readFloat_zero : Value.readFloat "0.0" = .ok (.float 0.0) := rfl

theorem readFloat_one : Value.readFloat "1.0" = .ok (.float 1.0) := by
  have read : readDecimal? (trim "1.0".toList) = some ⟨10, -1⟩ := by decide
  have length : (Decimal.mk 10 (-1)).length = 2 := by simp [Decimal.length, Numeral.digits]
  have rounded : (Decimal.mk 10 (-1)).toFloat = 1.0 := by
    simp only [Decimal.toFloat, length]
    rfl
  rw [Value.readFloat, readFloat_of_readDecimal? read, rounded]

/-! ## Arithmetic that stands for values -/

theorem applyIntegers_subtract {m n i : Integer} (difference : i.toInt = m.toInt - n.toInt) :
    BinaryOp.subtract.apply (.integer m) (.integer n) = .ok (.integer i) := by
  show (fit m .subtract n (m.toInt - n.toInt)).map Value.integer = .ok (.integer i)
  rw [fit, ← difference, Integer.ofInt?_toInt]
  rfl

/-- The magnitude of an integer other than the least one is an integer. -/
theorem exists_natAbs {n : Integer} (notLeast : n ≠ Int64.minValue) :
    ∃ m : Integer, 0 ≤ m.toInt ∧ m.toInt.natAbs = n.toInt.natAbs := by
  have least : Int64.minValue.toInt = -9223372036854775808 := by decide
  have most : Int64.maxValue.toInt = 9223372036854775807 := by decide
  have above : n.toInt ≠ Int64.minValue.toInt := fun equal => notLeast (Int64.toInt_inj.1 equal)
  have fits : Integer.Fits n.toInt.natAbs := by
    obtain ⟨low, high⟩ := Integer.fits_toInt n
    constructor <;> omega
  cases found : Integer.ofInt? (n.toInt.natAbs : Int) with
  | none => exact absurd fits (Integer.ofInt?_eq_none_iff.1 found)
  | some m =>
    have same := Integer.ofInt?_eq_some_iff.1 found
    exact ⟨m, by omega, by omega⟩

section Values

variable (grid : Grid) (resolve : Address → Traced Value)

/-- The tree of an integer evaluates to it, even that of the least one: no intermediate result
overflows. -/
theorem result_evaluate_integerTree (n : Integer) :
    ((Value.integer n).tree.evaluate grid resolve).result = .ok (.integer n) := by
  have zero : Value.readInteger "0" = .ok (.integer 0) := rfl
  rw [Value.tree]
  by_cases least : n = Int64.minValue
  · have one : Value.readInteger "1" = .ok (.integer 1) := rfl
    have most := readInteger_ofNat (n := Int64.maxValue) (by decide)
    rw [← Integer.text_of_nonneg (by decide), Integer.text_maxValue] at most
    have inner := applyIntegers_subtract (m := 0) (n := Int64.maxValue) (i := -Int64.maxValue)
      (by decide)
    have outer := applyIntegers_subtract (m := -Int64.maxValue) (n := 1) (i := Int64.minValue)
      (by decide)
    rw [if_pos least, Tree.result_evaluate_binary, Tree.result_evaluate_binary,
      Tree.result_evaluate_integer, Tree.result_evaluate_integer, Tree.result_evaluate_integer,
      zero, one, most, least]
    show (BinaryOp.subtract.apply (.integer 0) (.integer Int64.maxValue) >>= fun d =>
      BinaryOp.subtract.apply d (.integer 1)) = _
    rw [inner]
    exact outer
  · rw [if_neg least]
    obtain ⟨m, nonneg, same⟩ := exists_natAbs least
    have magnitude := readInteger_ofNat nonneg
    rw [same] at magnitude
    by_cases negative : n.toInt < 0
    · have difference : n.toInt = (0 : Integer).toInt - m.toInt := by
        have : (0 : Integer).toInt = 0 := by decide
        omega
      rw [if_pos negative, Tree.result_evaluate_binary, Tree.result_evaluate_integer,
        Tree.result_evaluate_integer, zero, magnitude]
      exact applyIntegers_subtract difference
    · rw [if_neg negative, Tree.result_evaluate_integer]
      exact readInteger_ofNat (Int.not_lt.1 negative)

theorem result_evaluate_quotient {a b : String} {y z : Float}
    (left : Value.readFloat a = .ok (.float y)) (right : Value.readFloat b = .ok (.float z)) :
    ((Tree.binary (.binary .divide) (.leaf .float a) (.leaf .float b)).evaluate grid
      resolve).result = .ok (.float (y / z)) := by
  rw [Tree.result_evaluate_binary, Tree.result_evaluate_float, Tree.result_evaluate_float,
    left, right]
  rfl

theorem result_evaluate_difference {tree : Tree} {y : Float}
    (right : (tree.evaluate grid resolve).result = .ok (.float y)) :
    ((Tree.binary (.binary .subtract) (.leaf .float "0.0") tree).evaluate grid resolve).result =
      .ok (.float (0.0 - y)) := by
  rw [Tree.result_evaluate_binary, Tree.result_evaluate_float, readFloat_zero, right]
  rfl

/-- The tree of a float evaluates to it, unless it is the negative zero. -/
theorem result_evaluate_floatTree {x : Float} (writable : (Value.float x).Writable) :
    ((Value.float x).tree.evaluate grid resolve).result = .ok (.float x) := by
  rw [Value.tree]
  by_cases finite : x.isFinite = true
  · obtain ⟨noNaN, noInf⟩ := isFinite_iff.1 finite
    simp only [noNaN, noInf, Bool.false_eq_true, if_false]
    cases negative : isNegative x with
    | true =>
      have finiteNeg : (-x).isFinite = true := (isFinite_neg x).trans finite
      have positive : isNegative (-x) = false := by rw [isNegative_neg finite, negative]; rfl
      have nonzero : x ≠ -0.0 := fun zero => writable (congrArg Value.float zero)
      have magnitude : ((Tree.leaf .float (floatText (-x))).evaluate grid resolve).result =
          .ok (.float (-x)) := by
        rw [Tree.result_evaluate_float, Value.readFloat_floatText finiteNeg positive]
      rw [if_pos rfl, result_evaluate_difference grid resolve magnitude,
        zero_sub_neg finite negative nonzero]
    | false =>
      rw [if_neg Bool.false_ne_true, Tree.result_evaluate_float,
        Value.readFloat_floatText finite negative]
  · cases nan : x.isNaN with
    | true =>
      rw [if_pos rfl, result_evaluate_quotient grid resolve readFloat_zero readFloat_zero,
        ← eq_of_isNaN nan]
    | false =>
      have infinite : x.isInf = true := by
        rw [isFinite_iff, nan] at finite
        simpa using finite
      have value := eq_of_isInf infinite
      have quotient := result_evaluate_quotient grid resolve readFloat_one readFloat_zero
      rw [infinite, if_neg Bool.false_ne_true, if_pos rfl]
      cases negative : isNegative x with
      | true =>
        rw [negative, if_pos rfl] at value
        rw [if_pos rfl, result_evaluate_difference grid resolve quotient, ← value]
      | false =>
        rw [negative, if_neg Bool.false_ne_true] at value
        rw [if_neg Bool.false_ne_true, quotient, ← value]

theorem result_evaluate_valueTree {v : Value} (writable : v.Writable) :
    (v.tree.evaluate grid resolve).result = .ok v := by
  cases v with
  | integer n => exact result_evaluate_integerTree grid resolve n
  | float x => exact result_evaluate_floatTree grid resolve writable
  | boolean b => cases b <;> rfl
  | string s => rfl

end Values

/-! ## Expressions -/

namespace Expr

/-- All values in the expression have a literal that evaluates to them. -/
def Writable (e : Expr) : Prop := ∀ v ∈ e.values, v.Writable

instance (e : Expr) : Decidable e.Writable :=
  inferInstanceAs (Decidable (∀ v ∈ e.values, v.Writable))

theorem writable_binary {op : BinaryOp} {left right : Expr} :
    (binary op left right).Writable ↔ left.Writable ∧ right.Writable :=
  List.forall_mem_append

/-- The tree of an expression evaluates like the expression, whatever other cells hold. -/
theorem result_evaluate_tree (grid : Grid) (resolve : Address → Traced Value) {e : Expr}
    (referable : e.Referable) (writable : e.Writable) :
    (e.tree.evaluate grid resolve).result = (e.evaluate grid resolve).result := by
  induction e with
  | value v => exact result_evaluate_valueTree grid resolve (writable v List.mem_cons_self)
  | reference a =>
    rw [tree, Tree.result_evaluate_reference, readReference_text (referable_reference.1 referable)]
    rfl
  | unary op operand ih =>
    rw [tree, Tree.result_evaluate_unary, result_evaluate_unary, ih referable writable]
  | binary op left right ihLeft ihRight =>
    obtain ⟨leftReferable, rightReferable⟩ := referable_binary.1 referable
    obtain ⟨leftWritable, rightWritable⟩ := writable_binary.1 writable
    rw [tree, Tree.result_evaluate_binary, result_evaluate_binary,
      ihLeft leftReferable leftWritable, ihRight rightReferable rightWritable]
  | aggregate fn range =>
    obtain ⟨start, stop⟩ := referable_aggregate.1 referable
    rw [tree, Tree.result_evaluate_aggregate, Tree.corner, Tree.corner, readReference_text start,
      readReference_text stop]
    rfl

/-- In every context the text of an expression evaluates like the expression. So a cell where the
expression was stored has its value, in the context that is entered there. -/
theorem result_evaluate_text {e : Expr} (referable : e.Referable) (unquoted : e.Unquoted)
    (writable : e.Writable) :
    (∃ tree, Tree.ofText e.text = .ok tree ∧
      ∀ c : Context, (c.evaluateTree tree).result = (c.evaluateExpr e).result) ∧
    ∀ (s : Session) (a : Address) (limit : Nat) (chain : List Address), a ∉ chain →
      chain.length < limit →
      let grid := (s.handle (.store a e)).2.grid
      ((⟨grid, limit, chain⟩ : Context).resolve a).result =
        ((⟨grid, limit, a :: chain⟩ : Context).evaluateExpr e).result := by
  have read : Tree.ofText e.text = .ok e.tree := (spells unquoted referable).1.ofText_eq
  refine ⟨⟨e.tree, read, fun c => result_evaluate_tree c.grid c.resolve referable writable⟩, ?_⟩
  intro s a limit chain outside below grid
  have found : grid.lookup a = some ⟨a, e.text⟩ := by
    show (s.grid.insert a e.text).lookup a = _
    rw [Grid.lookup_insert, if_pos rfl]
  have entered :
      (⟨grid, limit, chain⟩ : Context).enter a = .ok (e.text, ⟨grid, limit, a :: chain⟩) := by
    rw [Context.enter]
    simp only [found]
    rw [if_neg outside, if_pos below]
  rw [Context.result_resolve, entered]
  show (Tree.ofText e.text >>= fun tree => (Context.evaluateTree _ tree).result) = _
  rw [read]
  exact result_evaluate_tree grid _ referable writable

/-- The least integer, a float and a cell, combined: read back, and evaluated at `{B,0}`. -/
theorem result_evaluate_text_sum :
    let e := binary .equal (value (.integer Int64.minValue))
      (unary .toInteger (binary .add (value (.float 0.5)) (reference ⟨1, 0⟩)))
    (∃ tree, Tree.ofText e.text = .ok tree ∧
      ∀ c : Context, (c.evaluateTree tree).result = (c.evaluateExpr e).result) ∧
    ((⟨((Session.empty 9).handle (.store ⟨2, 0⟩ e)).2.grid, 9, []⟩ : Context).resolve
        ⟨2, 0⟩).result =
      ((⟨((Session.empty 9).handle (.store ⟨2, 0⟩ e)).2.grid, 9, [⟨2, 0⟩]⟩ : Context).evaluateExpr
        e).result := by
  intro e
  have read := result_evaluate_text (e := e) (by decide) (by decide) (by decide)
  exact ⟨read.1, read.2 (Session.empty 9) ⟨2, 0⟩ 9 [] (by decide) (by decide)⟩

end Expr

end CellFormula
