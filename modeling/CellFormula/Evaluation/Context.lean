import CellFormula.Evaluation.Basic
import CellFormula.Tree.Parser

/-!
# Contexts

A reference is resolved by evaluating the formula stored at its address, whose own references are
resolved in turn. A context keeps the chain of addresses that are being resolved: no address enters
it twice, and it grows no longer than a limit. So every evaluation ends.
-/

namespace CellFormula

/-- The surroundings in which a formula is evaluated. -/
structure Context where
  grid : Grid
  /-- How long the chain may grow. -/
  limit : Nat
  /-- The addresses that are being resolved, the innermost first. -/
  chain : List Address

namespace Context

/-- The formula stored at an address, and the context to evaluate it in. -/
def enter (c : Context) (a : Address) : Except FormulaError (String × Context) :=
  match c.grid.lookup a with
  | none => .error (.coordinates (.vacant a))
  | some cell =>
    if a ∈ c.chain then .error (.circular a)
    else if c.chain.length < c.limit then .ok (cell.formula, ⟨c.grid, c.limit, a :: c.chain⟩)
    else .error (.depthLimit c.limit)

theorem enter_deeper {c inner : Context} {a : Address} {formula : String}
    (entered : c.enter a = .ok (formula, inner)) :
    inner.limit - inner.chain.length < c.limit - c.chain.length := by
  unfold enter at entered
  split at entered
  · cases entered
  · split at entered
    · cases entered
    · split at entered
      · next below =>
        cases entered
        simp only [List.length_cons]
        omega
      · cases entered

/-- The value of the formula stored at an address. -/
def resolve (c : Context) (a : Address) : Traced Value :=
  match _entered : c.enter a with
  | .error e => .fail e
  | .ok (formula, inner) => do
    let tree ← Tree.ofText formula
    let v ← tree.evaluate inner.grid inner.resolve
    Traced.emit (.resolved a v)
    return v
termination_by c.limit - c.chain.length
decreasing_by exact enter_deeper _entered

/-- The value of a tree in a context. -/
def evaluateTree (c : Context) (t : Tree) : Traced Value :=
  t.evaluate c.grid c.resolve

/-- The value of an expression in a context. -/
def evaluateExpr (c : Context) (e : Expr) : Traced Value :=
  e.evaluate c.grid c.resolve

theorem resolve_of_refused {c : Context} {a : Address} {cause : FormulaError}
    (refused : c.enter a = .error cause) : c.resolve a = .fail cause := by
  rw [resolve]
  split
  · next other same =>
    rw [refused] at same
    cases same
    rfl
  · next same =>
    rw [refused] at same
    cases same

theorem resolve_of_entered {c inner : Context} {a : Address} {formula : String}
    (entered : c.enter a = .ok (formula, inner)) :
    c.resolve a = (do
      let tree ← Tree.ofText formula
      let v ← inner.evaluateTree tree
      Traced.emit (.resolved a v)
      return v) := by
  rw [resolve]
  split
  · next same =>
    rw [entered] at same
    cases same
  · next same =>
    rw [entered] at same
    cases same
    rfl

/-- An address has the value of its formula in the context that is entered. -/
theorem result_resolve (c : Context) (a : Address) :
    (c.resolve a).result = (do
      let (formula, inner) ← c.enter a
      let tree ← Tree.ofText formula
      (inner.evaluateTree tree).result) := by
  cases entered : c.enter a with
  | error cause => rw [resolve_of_refused entered]; rfl
  | ok found =>
    rw [resolve_of_entered entered]
    simp only [Traced.result_bind, Traced.result_lift, Traced.result_emit, Traced.result_pure]
    change (Tree.ofText found.1 >>= fun tree => (found.2.evaluateTree tree).result >>= pure) = _
    simp only [bind_pure]
    rfl

end Context

end CellFormula
