import CellFormula.Proofs.Evaluation.Aggregate
import CellFormula.Proofs.Evaluation.Errors
import CellFormula.Proofs.Evaluation.Terms
import CellFormula.Proofs.Tree.Spelling
import Mathlib.Logic.Relation

/-!
# Circular references

`Refers grid a b` is the graph of references: the formula stored at `a` dereferences `b`. What a
range function reads is not part of it, for such a function skips the addresses that have no value.

Main statements: `Tree.exists_dereference_of_refusal`, if a tree fails because a reference is
refused, it is an address that the tree dereferences; `Context.circular_of_resolve`, an address that
is found circular lies on the chain or on a cycle of references; `Session.circular_spec`, so a
formula is refused as circular only for a cycle that its references lead to.
-/

namespace CellFormula

/-! ## Refusals of a tree -/

variable {grid : Grid} {resolve : Address → Traced Value}

theorem Unrefused.ne_error {α : Type} {x : Except FormulaError α} {e : FormulaError}
    (unrefused : Unrefused x) (refusal : e.isRefusal = true) : x ≠ .error e := by
  intro failed
  rw [unrefused e failed] at refusal
  cases refusal

theorem Aggregate.unrefused_evaluate (fn : Aggregate) (grid : Grid)
    (resolve : Address → Traced Value) (range : Range) :
    Unrefused (fn.evaluate grid resolve range).result := by
  rw [result_evaluate]
  exact fn.unrefused_ofNumbers range _

/-- A leaf that is no reference has nothing that may be refused. -/
theorem Tree.unrefused_leaf {kind : TokenKind} (other : kind ≠ .reference) (source : String) :
    Unrefused ((leaf kind source).evaluate grid resolve).result := by
  cases kind with
  | reference => exact absurd rfl other
  | integer =>
    rw [result_evaluate_integer]
    exact Value.unrefused_readInteger source
  | float =>
    rw [result_evaluate_float]
    exact Value.unrefused_readFloat source
  | boolean =>
    rw [result_evaluate_boolean]
    exact Value.unrefused_readBoolean source
  | string => exact unrefused_ok _
  | _ => exact unrefused_error.2 rfl

/-- A tree that fails because a reference is refused fails like an address that it dereferences. -/
theorem Tree.exists_dereference_of_refusal {tree : Tree} {e : FormulaError}
    (refusal : e.isRefusal = true) (failed : (tree.evaluate grid resolve).result = .error e) :
    ∃ a, tree.Dereferences a ∧ (resolve a).result = .error e := by
  induction tree with
  | leaf kind source =>
    by_cases isReference : kind = .reference
    · subst isReference
      rw [result_evaluate_reference] at failed
      rcases of_bind_eq_error failed with unread | ⟨a, named, failed⟩
      · exact absurd unread ((unrefused_readReference source).ne_error refusal)
      · exact ⟨a, dereferences_leaf.2 named, failed⟩
    · exact absurd failed ((unrefused_leaf isReference source).ne_error refusal)
  | unary kind operand ih =>
    cases kind with
    | unary op =>
      rw [result_evaluate_unary] at failed
      rcases of_bind_eq_error failed with inner | ⟨v, _, inapplicable⟩
      · exact ih inner
      · exact absurd inapplicable ((op.unrefused_apply v).ne_error refusal)
    | _ => cases failed; cases refusal
  | binary kind left right ihLeft ihRight =>
    cases kind with
    | binary op =>
      simp only [dereferences_binary, or_and_right, exists_or]
      rw [result_evaluate_binary] at failed
      rcases of_bind_eq_error failed with inner | ⟨l, _, failed⟩
      · exact Or.inl (ihLeft inner)
      · rcases of_bind_eq_error failed with inner | ⟨r, _, inapplicable⟩
        · exact Or.inr (ihRight inner)
        · exact absurd inapplicable ((op.unrefused_apply l r).ne_error refusal)
    | aggregate fn =>
      rw [result_evaluate_aggregate] at failed
      have unrefused := left.unrefused_corner.bind fun a =>
        right.unrefused_corner.bind fun b => fn.unrefused_evaluate grid resolve ⟨a, b⟩
      exact absurd failed (unrefused.ne_error refusal)
    | _ => cases failed; cases refusal

/-! ## Chains and cycles -/

/-- The formula stored at the first address dereferences the second. -/
def Refers (grid : Grid) (a b : Address) : Prop :=
  ∃ cell, grid.lookup a = some cell ∧ FormulaDereferences cell.formula b

/-- References lead from the formula to the address. -/
def LeadsTo (grid : Grid) (formula : String) (a : Address) : Prop :=
  ∃ b, FormulaDereferences formula b ∧ Relation.ReflTransGen (Refers grid) b a

/-- An address that is found circular is reached by references, and is on the chain already or
refers to itself through others. -/
theorem Context.circular_of_resolve {c : Context} {a b : Address}
    (failed : (c.resolve a).result = .error (.circular b)) :
    Relation.ReflTransGen (Refers c.grid) a b ∧
      (b ∈ c.chain ∨ Relation.TransGen (Refers c.grid) b b) := by
  -- the chain of the context that is entered has one more address, and the path leads back to that
  -- one
  induction c, a using Context.resolve.induct with
  | case1 c a cause refused =>
    rw [resolve_of_refused refused] at failed
    cases failed
    obtain ⟨rfl, inside⟩ := of_enter_eq_circular refused
    exact ⟨.refl, .inl inside⟩
  | case2 c a formula inner entered ih =>
    rw [result_resolve, entered, ok_bind] at failed
    rcases of_bind_eq_error failed with unparsed | ⟨tree, parsed, failed⟩
    · exact absurd unparsed ((Tree.unrefused_ofText formula).ne_error rfl)
    · obtain ⟨next, dereferences, failed⟩ := Tree.exists_dereference_of_refusal rfl failed
      obtain ⟨path, known⟩ := ih next failed
      obtain ⟨⟨cell, stored, rfl⟩, _, _, rfl⟩ := enter_eq_ok_iff.1 entered
      have step : Refers c.grid a next := ⟨cell, stored, tree, parsed, dereferences⟩
      refine ⟨path.head step, ?_⟩
      rcases known with inside | cycle
      · rcases List.mem_cons.1 inside with rfl | inside
        · exact Or.inr (Relation.TransGen.head' step path)
        · exact Or.inl inside
      · exact Or.inr cycle

/-! ## Formulas -/

namespace Session

/-- A formula is refused as circular only for an address to which its references lead, and from
which they lead back to it. So it is not if there is no such address, however often a cell is
referred to, and whatever lies in the ranges that are aggregated. -/
theorem circular_spec (s : Session) (formula : String) :
    (∀ a, (s.evaluate formula).result = .error (.circular a) →
      LeadsTo s.grid formula a ∧ Relation.TransGen (Refers s.grid) a a) ∧
    ((∀ a, LeadsTo s.grid formula a → ¬ Relation.TransGen (Refers s.grid) a a) →
      ∀ a, (s.evaluate formula).result ≠ .error (.circular a)) := by
  have sound : ∀ a, (s.evaluate formula).result = .error (.circular a) →
      LeadsTo s.grid formula a ∧ Relation.TransGen (Refers s.grid) a a := by
    intro a failed
    rw [evaluate, Traced.result_bind, Traced.result_lift] at failed
    rcases of_bind_eq_error failed with unparsed | ⟨tree, parsed, failed⟩
    · exact absurd unparsed ((Tree.unrefused_ofText formula).ne_error rfl)
    · obtain ⟨b, dereferences, failed⟩ := Tree.exists_dereference_of_refusal rfl failed
      obtain ⟨path, inside | cycle⟩ := Context.circular_of_resolve failed
      · cases inside
      · exact ⟨⟨b, ⟨tree, parsed, dereferences⟩, path⟩, cycle⟩
  refine ⟨sound, fun acyclic a failed => ?_⟩
  obtain ⟨leads, cycle⟩ := sound a failed
  exact acyclic a leads cycle

/-- Two cells that refer to each other are a cycle, but a cell that adds up a range with itself in
it refers to nothing. -/
theorem circular_spec_pair :
    let pair := Session.mk
      (((∅ : Grid).insert ⟨1, 1⟩ "\x7bA,2\x7d").insert ⟨1, 2⟩ "\x7bA,1\x7d") 5
    let column := Session.mk ((∅ : Grid).insert ⟨1, 1⟩ "Sum \x7bA,1\x7d \x7bA,2\x7d") 5
    ((pair.evaluate "\x7bA,1\x7d").result = .error (.circular ⟨1, 1⟩) ∧
      LeadsTo pair.grid "\x7bA,1\x7d" ⟨1, 1⟩ ∧
      Relation.TransGen (Refers pair.grid) ⟨1, 1⟩ ⟨1, 1⟩) ∧
    (∀ a, LeadsTo column.grid "\x7bA,1\x7d" a →
      ¬ Relation.TransGen (Refers column.grid) a a) ∧
    ∀ a, (column.evaluate "\x7bA,1\x7d").result ≠ .error (.circular a) := by
  intro pair column
  have first : IsWordOf .reference "\x7bA,1\x7d".toList := by decide
  have last : IsWordOf .reference "\x7bA,2\x7d".toList := by decide
  have refused : (pair.evaluate "\x7bA,1\x7d").result = .error (.circular ⟨1, 1⟩) := by
    have firstLeaf := (Spells.atom rfl first.lexes).group.ofText_eq
    have lastLeaf := (Spells.atom rfl last.lexes).group.ofText_eq
    have outer : pair.root.enter ⟨1, 1⟩ =
        .ok ("\x7bA,2\x7d", ⟨pair.grid, 5, [⟨1, 1⟩]⟩) := rfl
    have inner : (Context.mk pair.grid 5 [⟨1, 1⟩]).enter ⟨1, 2⟩ =
        .ok ("\x7bA,1\x7d", ⟨pair.grid, 5, [⟨1, 2⟩, ⟨1, 1⟩]⟩) := rfl
    have innermost : (Context.mk pair.grid 5 [⟨1, 2⟩, ⟨1, 1⟩]).enter ⟨1, 1⟩ =
        .error (.circular ⟨1, 1⟩) := rfl
    have firstNamed : readReference "\x7bA,1\x7d" = .ok ⟨1, 1⟩ := rfl
    have lastNamed : readReference "\x7bA,2\x7d" = .ok ⟨1, 2⟩ := rfl
    simp only [evaluate, Traced.result_bind, Traced.result_lift, firstLeaf, lastLeaf, ok_bind,
      Context.evaluateTree, Tree.result_evaluate_reference, firstNamed, lastNamed,
      Context.result_resolve, outer, inner, innermost]
    rfl
  have parsed : Tree.ofText "Sum \x7bA,1\x7d \x7bA,2\x7d" = .ok (.binary (.aggregate .sum)
      (.leaf .reference "\x7bA,1\x7d") (.leaf .reference "\x7bA,2\x7d")) :=
    (Spells.rangeOf .sum first.lexes last.lexes).ofText_eq
  have unlinked : ∀ a b, ¬ Refers column.grid a b := by
    rintro a b ⟨cell, stored, tree, read, source, mem, _⟩
    rw [Grid.lookup_insert] at stored
    split at stored
    · cases stored
      cases parsed.symm.trans read
      simp [Tree.terms] at mem
    · cases stored
  have acyclic : ∀ a, LeadsTo column.grid "\x7bA,1\x7d" a →
      ¬ Relation.TransGen (Refers column.grid) a a := by
    intro a _ cycle
    obtain ⟨b, step, _⟩ := Relation.TransGen.head'_iff.1 cycle
    exact unlinked a b step
  exact ⟨⟨refused, (circular_spec pair _).1 _ refused⟩, acyclic, (circular_spec column _).2 acyclic⟩

end Session

end CellFormula
