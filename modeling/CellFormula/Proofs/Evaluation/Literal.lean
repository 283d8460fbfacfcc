import CellFormula.Proofs.Evaluation.Strings
import CellFormula.Proofs.Expr.Evaluation

/-!
# Values read back

A value is written as a formula, and the formula is evaluated. Half of the numbers come back through
arithmetic, for literals have no sign. The negative zero does not come back: it is written as a
difference of zeros, which is the positive zero.

Main statements: `Value.result_evaluate_readBack`, what a value comes back as, whatever cells there
are; `Session.literal_spec`, exactly which values come back as they are.
-/

namespace CellFormula

namespace Value

/-- What a value comes back as. -/
def readBack (v : Value) : Value := if v.Writable then v else .float 0.0

theorem tree_negativeZero : (Value.float (-0.0)).tree =
    .binary (.binary .subtract) (.leaf .float "0.0") (.leaf .float (floatText 0.0)) := by
  have positive : (- -0.0 : Float) = 0.0 := by decide
  rw [tree, if_neg (by decide), if_neg (by decide), if_pos (by decide), positive]

/-- The tree of a value evaluates to it, except for that of the negative zero. No cell and no limit
has any part in this. -/
theorem result_evaluate_readBack (grid : Grid) (resolve : Address → Traced Value) (v : Value) :
    (v.tree.evaluate grid resolve).result = .ok v.readBack := by
  by_cases writable : v.Writable
  · rw [readBack, if_pos writable]
    exact result_evaluate_valueTree grid resolve writable
  · obtain rfl : v = .float (-0.0) := Decidable.not_not.1 writable
    have zero : ((Tree.leaf .float (floatText 0.0)).evaluate grid resolve).result =
        .ok (.float 0.0) := by
      rw [Tree.result_evaluate_float, readFloat_floatText (by decide) (by decide)]
    have difference : (0.0 : Float) - 0.0 = 0.0 := by decide
    rw [tree_negativeZero, result_evaluate_difference grid resolve zero, readBack, if_neg writable,
      difference]

theorem readBack_eq_self_iff {v : Value} : v.readBack = v ↔ v.Writable := by
  constructor
  · rintro same rfl
    exact absurd same (by decide)
  · exact fun writable => if_pos writable

end Value

namespace Session

theorem ofText_literal {v : Value} (unquoted : v.Unquoted) :
    Tree.ofText (Expr.value v).text = .ok v.tree :=
  (Value.spells unquoted).1.ofText_eq

theorem result_evaluate_literal {v : Value} (unquoted : v.Unquoted) (s : Session) :
    (s.evaluate (Expr.value v).text).result = .ok v.readBack := by
  rw [result_evaluate (ofText_literal unquoted)]
  exact v.result_evaluate_readBack _ _

theorem result_resolve_stored {v : Value} (unquoted : v.Unquoted) (s : Session) (a : Address)
    (room : 0 < s.limit) :
    ((s.handle (.store a (.value v))).2.root.resolve a).result = .ok v.readBack := by
  let stored := (s.handle (.store a (.value v))).2
  have cell : stored.grid.lookup a = some ⟨a, (Expr.value v).text⟩ := by
    show (s.grid.insert a (Expr.value v).text).lookup a = _
    rw [Grid.lookup_insert, if_pos rfl]
  have inside : (stored.root.resolve a).result = _ :=
    Context.result_resolve_of_lookup cell List.not_mem_nil room
  rw [ofText_literal unquoted] at inside
  rw [inside]
  exact v.result_evaluate_readBack _ _

/-- A value comes back from its text exactly if it has no quotes in it and is not the negative zero,
which comes back as the positive one. The cells and the limit of the session make no difference. A
cell in which the value is stored comes back as the text does. -/
theorem literal_spec (s : Session) (v : Value) :
    ((s.evaluate (Expr.value v).text).result = .ok v ↔ v.Unquoted ∧ v ≠ .float (-0.0)) ∧
    (s.evaluate (Expr.value (.float (-0.0))).text).result = .ok (.float 0.0) ∧
    (v.Unquoted → ∀ a, 0 < s.limit →
      ((s.handle (.store a (.value v))).2.root.resolve a).result =
        (s.evaluate (Expr.value v).text).result) := by
  refine ⟨⟨fun same => ?_, fun ⟨unquoted, writable⟩ => ?_⟩, ?_, fun unquoted a room => ?_⟩
  · have unquoted : v.Unquoted := unquoted_of_evaluate same
    rw [result_evaluate_literal unquoted] at same
    exact ⟨unquoted, Value.readBack_eq_self_iff.1 (Except.ok.inj same)⟩
  · rw [result_evaluate_literal unquoted, Value.readBack_eq_self_iff.2 writable]
  · rw [result_evaluate_literal (v := .float (-0.0)) trivial s]
    rfl
  · rw [result_resolve_stored unquoted s a room, result_evaluate_literal unquoted]

/-- The least integer, from its text and from a cell. -/
theorem literal_spec_least :
    let v := Value.integer Int64.minValue
    let s := Session.empty 1
    v.Unquoted ∧ 0 < s.limit ∧ (s.evaluate (Expr.value v).text).result = .ok v ∧
      ((s.handle (.store ⟨1, 1⟩ (.value v))).2.root.resolve ⟨1, 1⟩).result = .ok v := by
  intro v s
  have unquoted : v.Unquoted := trivial
  have room : 0 < s.limit := Nat.one_pos
  obtain ⟨comesBack, _, stored⟩ := literal_spec s v
  have same : (s.evaluate (Expr.value v).text).result = .ok v := comesBack.2 ⟨unquoted, nofun⟩
  exact ⟨unquoted, room, same, (stored unquoted ⟨1, 1⟩ room).trans same⟩

/-- The negative zero, stored in the first cell, is found there with its sign lost. -/
theorem negativeZero_lost :
    let v := Value.float (-0.0)
    let s := ((Session.empty 1).handle (.store ⟨1, 1⟩ (.value v))).2
    v.Unquoted ∧ (s.evaluate (Expr.value v).text).result = .ok (.float 0.0) ∧
      (s.root.resolve ⟨1, 1⟩).result = .ok (.float 0.0) ∧ Value.float 0.0 ≠ v := by
  intro v s
  have lost : v.readBack = .float 0.0 := rfl
  refine ⟨trivial, ?_, ?_, by decide⟩
  · exact (result_evaluate_literal (v := v) trivial s).trans (congrArg _ lost)
  · exact (result_resolve_stored (v := v) trivial (Session.empty 1) ⟨1, 1⟩ Nat.one_pos).trans
      (congrArg _ lost)

end Session

end CellFormula
