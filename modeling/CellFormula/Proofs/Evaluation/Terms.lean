import CellFormula.Proofs.Evaluation.Basic
import CellFormula.Proofs.Grid

/-!
# Terms of a tree

The terms of a tree are what its operators link: literals, references and functions of a range. By
its terms a tree reads addresses. It dereferences those that its references name, and aggregates
those that lie in its ranges.

Main statement: `Tree.evaluate_congr`, a tree has the same value wherever the addresses that it
reads have the same values.
-/

namespace CellFormula

namespace Tree

/-- The terms of a tree, from left to right. -/
def terms : Tree → List Tree
  | unary (.unary _) operand => operand.terms
  | binary (.binary _) left right => left.terms ++ right.terms
  | term => [term]

/-- One of the terms is a reference to the address. -/
def Dereferences (tree : Tree) (a : Address) : Prop :=
  ∃ source, leaf .reference source ∈ tree.terms ∧ readReference source = .ok a

/-- One of the terms is a function of a range that the address lies in. -/
def Aggregates (tree : Tree) (a : Address) : Prop :=
  ∃ fn start stop first last, binary (.aggregate fn) start stop ∈ tree.terms ∧
    start.corner = .ok first ∧ stop.corner = .ok last ∧ a ∈ Range.mk first last

variable {a : Address} {source : String} {left right start stop : Tree} {op : BinaryOp}

theorem dereferences_leaf :
    (leaf .reference source).Dereferences a ↔ readReference source = .ok a := by
  simp [Dereferences, terms]

theorem dereferences_binary :
    (binary (.binary op) left right).Dereferences a ↔
      left.Dereferences a ∨ right.Dereferences a := by
  simp only [Dereferences, terms, List.mem_append, or_and_right, exists_or]

theorem aggregates_binary :
    (binary (.binary op) left right).Aggregates a ↔ left.Aggregates a ∨ right.Aggregates a := by
  simp only [Aggregates, terms, List.mem_append, or_and_right, exists_or]

theorem aggregates_range {fn : Aggregate} {first last : Address} (starts : start.corner = .ok first)
    (stops : stop.corner = .ok last) (inside : a ∈ Range.mk first last) :
    (binary (.aggregate fn) start stop).Aggregates a :=
  ⟨fn, start, stop, first, last, List.mem_singleton.2 rfl, starts, stops, inside⟩

end Tree

/-! ## What a formula reads -/

/-- The formula parses to a tree that dereferences the address. -/
def FormulaDereferences (formula : String) (a : Address) : Prop :=
  ∃ tree, Tree.ofText formula = .ok tree ∧ tree.Dereferences a

/-- The formula parses to a tree that dereferences or aggregates the address. -/
def FormulaReads (formula : String) (a : Address) : Prop :=
  ∃ tree, Tree.ofText formula = .ok tree ∧ (tree.Dereferences a ∨ tree.Aggregates a)

theorem formulaReads_iff {formula : String} {tree : Tree} (parsed : Tree.ofText formula = .ok tree)
    {a : Address} : FormulaReads formula a ↔ tree.Dereferences a ∨ tree.Aggregates a := by
  simp [FormulaReads, parsed]

/-! ## Evaluation depends on what is read -/

/-- What goes on after a step depends only on the results that the step can have. -/
theorem Traced.lift_bind_congr {α β : Type} {x : Except FormulaError α} {f g : α → Traced β}
    (same : ∀ a, x = .ok a → f a = g a) :
    ((liftM x : Traced α) >>= f) = (liftM x : Traced α) >>= g := by
  cases x with
  | error e => rfl
  | ok a =>
    show (pure a : Traced α) >>= f = pure a >>= g
    rw [pure_bind, pure_bind, same a rfl]

variable {grid other : Grid} {resolve otherResolve : Address → Traced Value}

namespace Aggregate

theorem numbersAt_congr {fn : Aggregate} {addresses : List Address}
    (same : ∀ a ∈ addresses, otherResolve a = resolve a) :
    fn.numbersAt otherResolve addresses = fn.numbersAt resolve addresses := by
  induction addresses with
  | nil => rfl
  | cons a rest ih =>
    rw [numbersAt, numbersAt, same a List.mem_cons_self,
      ih fun b mem => same b (List.mem_cons_of_mem a mem)]

theorem evaluate_congr {fn : Aggregate} {range : Range}
    (occupied : ∀ a ∈ range, other.contains a = grid.contains a)
    (same : ∀ a ∈ range, otherResolve a = resolve a) :
    fn.evaluate other otherResolve range = fn.evaluate grid resolve range := by
  rw [evaluate, evaluate, Grid.occupiedIn_congr occupied,
    numbersAt_congr fun a mem => same a (Grid.mem_occupiedIn.1 mem).2]

end Aggregate

theorem evaluateLeaf_congr {kind : TokenKind} {source : String}
    (same : ∀ a, kind = .reference → readReference source = .ok a → otherResolve a = resolve a) :
    evaluateLeaf otherResolve kind source = evaluateLeaf resolve kind source := by
  cases kind with
  | reference => exact Traced.lift_bind_congr fun a named => same a rfl named
  | _ => rfl

/-- A tree has the same value, found in the same way, if the addresses that it reads have the same
values and those in its ranges are occupied alike. -/
theorem Tree.evaluate_congr {tree : Tree}
    (dereferenced : ∀ a, tree.Dereferences a → otherResolve a = resolve a)
    (aggregated : ∀ a, tree.Aggregates a →
      other.contains a = grid.contains a ∧ otherResolve a = resolve a) :
    tree.evaluate other otherResolve = tree.evaluate grid resolve := by
  induction tree with
  | leaf kind source =>
    refine evaluateLeaf_congr fun a isReference named => dereferenced a ?_
    subst isReference
    exact dereferences_leaf.2 named
  | unary kind operand ih =>
    cases kind with
    | unary op => rw [evaluate, evaluate, ih dereferenced aggregated]
    | _ => rfl
  | binary kind left right ihLeft ihRight =>
    cases kind with
    | binary op =>
      rw [evaluate, evaluate,
        ihLeft (fun a mem => dereferenced a (dereferences_binary.2 (.inl mem)))
          (fun a mem => aggregated a (aggregates_binary.2 (.inl mem))),
        ihRight (fun a mem => dereferenced a (dereferences_binary.2 (.inr mem)))
          (fun a mem => aggregated a (aggregates_binary.2 (.inr mem)))]
    | aggregate fn =>
      rw [evaluate, evaluate]
      refine Traced.lift_bind_congr fun first starts => Traced.lift_bind_congr fun last stops => ?_
      refine Aggregate.evaluate_congr (fun a inside => ?_) fun a inside => ?_
      · exact (aggregated a (aggregates_range starts stops inside)).1
      · exact (aggregated a (aggregates_range starts stops inside)).2
    | _ => rfl

end CellFormula
