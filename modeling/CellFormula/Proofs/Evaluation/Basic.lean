import CellFormula.Evaluation.Context

/-!
# Results of nodes

What a node evaluates to, in terms of what its operands evaluate to. Events are left aside: both
evaluators leave their own, and no result depends on them. At the end stands what a context enters
when a node is a reference.
-/

namespace CellFormula

variable {grid : Grid} {resolve : Address → Traced Value}

namespace Tree

@[simp] theorem result_evaluate_integer (source : String) :
    ((leaf .integer source).evaluate grid resolve).result = Value.readInteger source := by
  rw [evaluate, evaluateLeaf, Traced.result_lift]

@[simp] theorem result_evaluate_float (source : String) :
    ((leaf .float source).evaluate grid resolve).result = Value.readFloat source := by
  rw [evaluate, evaluateLeaf, Traced.result_lift]

@[simp] theorem result_evaluate_boolean (source : String) :
    ((leaf .boolean source).evaluate grid resolve).result = Value.readBoolean source := by
  rw [evaluate, evaluateLeaf, Traced.result_lift]

@[simp] theorem result_evaluate_string (source : String) :
    ((leaf .string source).evaluate grid resolve).result = .ok (.string source) := rfl

@[simp] theorem result_evaluate_reference (source : String) :
    ((leaf .reference source).evaluate grid resolve).result = (do
      let a ← readReference source
      (resolve a).result) := by
  rw [evaluate, evaluateLeaf, Traced.result_bind]
  rfl

@[simp] theorem result_evaluate_unary (op : UnaryOp) (operand : Tree) :
    ((unary (.unary op) operand).evaluate grid resolve).result = (do
      let v ← (operand.evaluate grid resolve).result
      op.apply v) := by
  rw [evaluate, Traced.result_bind]
  rfl

@[simp] theorem result_evaluate_binary (op : BinaryOp) (left right : Tree) :
    ((binary (.binary op) left right).evaluate grid resolve).result = (do
      let l ← (left.evaluate grid resolve).result
      let r ← (right.evaluate grid resolve).result
      op.apply l r) := by
  simp only [evaluate, Traced.result_bind, result_noteDecided, Traced.result_lift]
  rfl

@[simp] theorem result_evaluate_aggregate (fn : Aggregate) (start stop : Tree) :
    ((binary (.aggregate fn) start stop).evaluate grid resolve).result = (do
      let a ← start.corner
      let b ← stop.corner
      (fn.evaluate grid resolve ⟨a, b⟩).result) := by
  simp only [evaluate, Traced.result_bind, Traced.result_lift]

end Tree

namespace Expr

@[simp] theorem result_evaluate_unary (op : UnaryOp) (operand : Expr) :
    ((unary op operand).evaluate grid resolve).result = (do
      let v ← (operand.evaluate grid resolve).result
      op.apply v) := by
  rw [evaluate, Traced.result_bind]
  rfl

@[simp] theorem result_evaluate_binary (op : BinaryOp) (left right : Expr) :
    ((binary op left right).evaluate grid resolve).result = (do
      let l ← (left.evaluate grid resolve).result
      let r ← (right.evaluate grid resolve).result
      op.apply l r) := by
  simp only [evaluate, Traced.result_bind, result_noteDecided, Traced.result_lift]
  rfl

end Expr

namespace Context

/-- What a context answers where it is to enter an address. -/
inductive Entry (c : Context) (a : Address) : Except FormulaError (String × Context) → Prop
  | vacant (absent : c.grid.lookup a = none) : Entry c a (.error (.coordinates (.vacant a)))
  | circular {cell : Cell} (stored : c.grid.lookup a = some cell) (inside : a ∈ c.chain) :
      Entry c a (.error (.circular a))
  | entered {cell : Cell} (stored : c.grid.lookup a = some cell) (outside : a ∉ c.chain)
      (below : c.chain.length < c.limit) :
      Entry c a (.ok (cell.formula, ⟨c.grid, c.limit, a :: c.chain⟩))
  | full {cell : Cell} (stored : c.grid.lookup a = some cell) (outside : a ∉ c.chain)
      (full : c.limit ≤ c.chain.length) : Entry c a (.error (.depthLimit c.limit))

variable {c inner : Context} {a : Address} {formula : String}

theorem entry (c : Context) (a : Address) : c.Entry a (c.enter a) := by
  unfold enter
  cases stored : c.grid.lookup a with
  | none => exact .vacant stored
  | some cell =>
    by_cases inside : a ∈ c.chain
    · simp only [inside, if_true]
      exact .circular stored inside
    · simp only [inside, if_false]
      split
      · next below => exact .entered stored inside below
      · next full => exact .full stored inside (Nat.not_lt.1 full)

theorem Entry.enter_eq {answer : Except FormulaError (String × Context)}
    (entry : c.Entry a answer) : c.enter a = answer := by
  unfold enter
  cases entry with
  | vacant absent => simp only [absent]
  | circular stored inside => simp only [stored, inside, if_true]
  | entered stored outside below => simp only [stored, outside, below, if_true, if_false]
  | full stored outside full => simp only [stored, outside, Nat.not_lt.2 full, if_false]

/-- The formula stored at an address is entered if it is not being resolved and the chain may
grow. -/
theorem enter_eq_ok_iff :
    c.enter a = .ok (formula, inner) ↔
      (∃ cell, c.grid.lookup a = some cell ∧ cell.formula = formula) ∧ a ∉ c.chain ∧
        c.chain.length < c.limit ∧ inner = ⟨c.grid, c.limit, a :: c.chain⟩ := by
  constructor
  · intro known
    have entry := c.entry a
    rw [known] at entry
    cases entry with
    | entered stored outside below => exact ⟨⟨_, stored, rfl⟩, outside, below, rfl⟩
  · rintro ⟨⟨cell, stored, rfl⟩, outside, below, rfl⟩
    exact (Entry.entered stored outside below).enter_eq

/-- An address that is entered has the value that its formula has there. -/
theorem result_resolve_of_lookup {cell : Cell} (stored : c.grid.lookup a = some cell)
    (outside : a ∉ c.chain) (below : c.chain.length < c.limit) :
    (c.resolve a).result = (do
      let tree ← Tree.ofText cell.formula
      (evaluateTree ⟨c.grid, c.limit, a :: c.chain⟩ tree).result) := by
  rw [result_resolve, (Entry.entered stored outside below).enter_eq]
  rfl

/-- An address is circular when it is being resolved already. -/
theorem of_enter_eq_circular {b : Address} (refused : c.enter a = .error (.circular b)) :
    a = b ∧ a ∈ c.chain := by
  have entry := c.entry a
  rw [refused] at entry
  cases entry with
  | circular _ inside => exact ⟨rfl, inside⟩

/-- The limit refuses a formula that is stored and not being resolved, when the chain may not
grow. -/
theorem of_enter_eq_depthLimit {limit : Nat} (refused : c.enter a = .error (.depthLimit limit)) :
    (∃ cell, c.grid.lookup a = some cell) ∧ a ∉ c.chain ∧ c.limit ≤ c.chain.length := by
  have entry := c.entry a
  rw [refused] at entry
  cases entry with
  | full stored outside full => exact ⟨⟨_, stored⟩, outside, full⟩

end Context

end CellFormula
