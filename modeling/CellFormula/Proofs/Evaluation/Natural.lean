import CellFormula.Proofs.Evaluation.Basic
import CellFormula.Proofs.Tree.Spelling
import CellFormula.Session

/-!
# Natural semantics

`HasValue grid tree v h` derives the value of a tree from the formulas in a grid, with no chain of
addresses and no limit: a reference has the value of the formula stored at its address. Of a
derivation only its height `h` is kept, the greatest number of references followed one inside the
other. Range functions are left out; for they pass over cells that have no value.

Main statements: `HasValue.unique`, value and height are determined by the tree;
`HasValue.result_eq`, a context evaluates a tree to its value, or exceeds its limit when the height
does; `Context.Resolves.exists_hasValue`, a value that a context finds is derived;
`Session.evaluate_spec`, what a session evaluates a formula to.
-/

namespace CellFormula

/-- The value of a literal. -/
inductive IsLiteral : TokenKind → String → Value → Prop
  | integer {source : String} {v : Value} (read : Value.readInteger source = .ok v) :
      IsLiteral .integer source v
  | float {source : String} {v : Value} (read : Value.readFloat source = .ok v) :
      IsLiteral .float source v
  | boolean {source : String} {v : Value} (read : Value.readBoolean source = .ok v) :
      IsLiteral .boolean source v
  | string {source : String} : IsLiteral .string source (.string source)

/-- The tree has the value by a derivation of height `h`. -/
inductive HasValue (grid : Grid) : Tree → Value → Nat → Prop
  | literal {kind : TokenKind} {source : String} {v : Value} (literal : IsLiteral kind source v) :
      HasValue grid (.leaf kind source) v 0
  | reference {source : String} {a : Address} {cell : Cell} {tree : Tree} {v : Value} {h : Nat}
      (named : readReference source = .ok a) (stored : grid.lookup a = some cell)
      (parsed : Tree.ofText cell.formula = .ok tree) (value : HasValue grid tree v h) :
      HasValue grid (.leaf .reference source) v (h + 1)
  | unary {op : UnaryOp} {operand : Tree} {v w : Value} {h : Nat}
      (value : HasValue grid operand v h) (applied : op.apply v = .ok w) :
      HasValue grid (.unary (.unary op) operand) w h
  | binary {op : BinaryOp} {left right : Tree} {l r v : Value} {h k : Nat}
      (leftValue : HasValue grid left l h) (rightValue : HasValue grid right r k)
      (applied : op.apply l r = .ok v) :
      HasValue grid (.binary (.binary op) left right) v (max h k)

/-- The formula lexes and parses to a tree that has the value. -/
def FormulaHasValue (grid : Grid) (formula : String) (v : Value) (h : Nat) : Prop :=
  ∃ tree, Tree.ofText formula = .ok tree ∧ HasValue grid tree v h

variable {grid : Grid}

/-! ## Derivations determine evaluation -/

theorem IsLiteral.result_eq {kind : TokenKind} {source : String} {v : Value}
    (literal : IsLiteral kind source v) (grid : Grid) (resolve : Address → Traced Value) :
    ((Tree.leaf kind source).evaluate grid resolve).result = .ok v := by
  cases literal with
  | integer read => rw [Tree.result_evaluate_integer, read]
  | float read => rw [Tree.result_evaluate_float, read]
  | boolean read => rw [Tree.result_evaluate_boolean, read]
  | string => rw [Tree.result_evaluate_string]

theorem IsLiteral.unique {kind : TokenKind} {source : String} {v w : Value}
    (first : IsLiteral kind source v) (second : IsLiteral kind source w) : v = w := by
  have same := (first.result_eq ∅ fun _ => .ok v).symm.trans (second.result_eq ∅ fun _ => .ok v)
  cases same
  rfl

/-- A tree has at most one value, and all derivations of it are equally high. -/
theorem HasValue.unique {tree : Tree} {v w : Value} {h k : Nat} (first : HasValue grid tree v h)
    (second : HasValue grid tree w k) : v = w ∧ h = k := by
  induction first generalizing w k with
  | literal literal =>
    cases second with
    | literal other => exact ⟨literal.unique other, rfl⟩
    | reference _ _ _ _ => cases literal
  | reference named stored parsed _ ih =>
    cases second with
    | literal other => cases other
    | reference otherNamed otherStored otherParsed value =>
      cases named.symm.trans otherNamed
      cases stored.symm.trans otherStored
      cases parsed.symm.trans otherParsed
      obtain ⟨same, heights⟩ := ih value
      exact ⟨same, congrArg (· + 1) heights⟩
  | unary _ applied ih =>
    cases second with
    | unary value otherApplied =>
      obtain ⟨rfl, rfl⟩ := ih value
      cases applied.symm.trans otherApplied
      exact ⟨rfl, rfl⟩
  | binary _ _ applied ihLeft ihRight =>
    cases second with
    | binary leftValue rightValue otherApplied =>
      obtain ⟨rfl, rfl⟩ := ihLeft leftValue
      obtain ⟨rfl, rfl⟩ := ihRight rightValue
      cases applied.symm.trans otherApplied
      exact ⟨rfl, rfl⟩

/-- The formula stored at the address has a value, by a derivation of at least this height. -/
def HighAt (grid : Grid) (h : Nat) (a : Address) : Prop :=
  ∃ cell v k, grid.lookup a = some cell ∧ FormulaHasValue grid cell.formula v k ∧ h ≤ k

/-- The chain of a context is within the limit, and the formulas that wait in it have derivations of
at least this height. So a formula below that height cannot be one of them. -/
structure Context.WaitsFor (c : Context) (h : Nat) : Prop where
  room : c.chain.length ≤ c.limit
  high : ∀ a ∈ c.chain, HighAt c.grid h a

namespace Context.WaitsFor

variable {c : Context} {a : Address} {cell : Cell} {v : Value} {h k : Nat}

theorem mono (waits : c.WaitsFor k) (lower : h ≤ k) : c.WaitsFor h := by
  refine ⟨waits.room, fun a mem => ?_⟩
  obtain ⟨cell, v, height, stored, value, high⟩ := waits.high a mem
  exact ⟨cell, v, height, stored, value, Nat.le_trans lower high⟩

/-- An address whose formula has a derivation below the height is not in the chain. -/
theorem not_mem (waits : c.WaitsFor k) (stored : c.grid.lookup a = some cell)
    (value : FormulaHasValue c.grid cell.formula v h) (lower : h < k) : a ∉ c.chain := by
  intro mem
  obtain ⟨other, w, height, otherStored, ⟨otherTree, otherParsed, otherValue⟩, high⟩ :=
    waits.high a mem
  obtain ⟨tree, parsed, derived⟩ := value
  cases stored.symm.trans otherStored
  cases parsed.symm.trans otherParsed
  have same := (derived.unique otherValue).2
  omega

theorem enter (waits : c.WaitsFor (h + 1)) (below : c.chain.length < c.limit)
    (stored : c.grid.lookup a = some cell) (value : FormulaHasValue c.grid cell.formula v h) :
    (Context.mk c.grid c.limit (a :: c.chain)).WaitsFor h := by
  refine ⟨below, fun b mem => ?_⟩
  rcases List.mem_cons.1 mem with rfl | mem
  · exact ⟨cell, v, h, stored, value, Nat.le_refl h⟩
  · exact (waits.mono (Nat.le_succ h)).high b mem

end Context.WaitsFor

/-- What a context makes of a value that is derived at height `h`. -/
def Context.outcome (c : Context) (v : Value) (h : Nat) : Except FormulaError Value :=
  if c.chain.length + h ≤ c.limit then .ok v else .error (.depthLimit c.limit)

namespace Context

variable {c : Context} {l r v w : Value} {h k : Nat}

theorem outcome_of_le (within : c.chain.length + h ≤ c.limit) : c.outcome v h = .ok v :=
  if_pos within

theorem outcome_of_lt (beyond : c.limit < c.chain.length + h) :
    c.outcome v h = .error (.depthLimit c.limit) :=
  if_neg (Nat.not_le.2 beyond)

theorem le_of_outcome (kept : c.outcome v h = .ok w) : c.chain.length + h ≤ c.limit := by
  refine Nat.not_lt.1 fun beyond => ?_
  rw [outcome_of_lt beyond] at kept
  cases kept

theorem outcome_unary {op : UnaryOp} (applied : op.apply v = .ok w) :
    (do op.apply (← c.outcome v h)) = c.outcome w h := by
  rcases Nat.lt_or_ge c.limit (c.chain.length + h) with beyond | within
  · rw [outcome_of_lt beyond, outcome_of_lt beyond]
    rfl
  · rw [outcome_of_le within, outcome_of_le within]
    exact applied

theorem outcome_binary {op : BinaryOp} (applied : op.apply l r = .ok v) :
    (do op.apply (← c.outcome l h) (← c.outcome r k)) = c.outcome v (max h k) := by
  rcases Nat.lt_or_ge c.limit (c.chain.length + h) with beyond | leftWithin
  · have whole : c.limit < c.chain.length + max h k := by omega
    rw [outcome_of_lt beyond, outcome_of_lt whole]
    rfl
  · rw [outcome_of_le leftWithin]
    rcases Nat.lt_or_ge c.limit (c.chain.length + k) with beyond | rightWithin
    · have whole : c.limit < c.chain.length + max h k := by omega
      rw [outcome_of_lt beyond, outcome_of_lt whole]
      rfl
    · have whole : c.chain.length + max h k ≤ c.limit := by omega
      rw [outcome_of_le rightWithin, outcome_of_le whole]
      exact applied

end Context

/-- A context evaluates a tree to the value that is derived for it, unless the references followed
one inside the other exceed the limit of the context. -/
theorem HasValue.result_eq {tree : Tree} {v : Value} {h : Nat} (value : HasValue grid tree v h)
    {c : Context} (same : c.grid = grid) (waits : c.WaitsFor h) :
    (c.evaluateTree tree).result = c.outcome v h := by
  -- along a derivation the chain grows only at references, and each of them leads one step down
  induction value generalizing c with
  | literal literal =>
    rw [Context.evaluateTree, literal.result_eq, Context.outcome_of_le waits.room]
  | @reference source a cell tree v h named stored parsed derived ih =>
    subst same
    have value : FormulaHasValue c.grid cell.formula v h := ⟨tree, parsed, derived⟩
    have outside := waits.not_mem stored value (Nat.lt_succ_self h)
    rw [Context.evaluateTree, Tree.result_evaluate_reference, named]
    show (c.resolve a).result = _
    by_cases below : c.chain.length < c.limit
    · have inner := ih (c := ⟨c.grid, c.limit, a :: c.chain⟩) rfl (waits.enter below stored value)
      rw [Context.result_resolve_of_lookup stored outside below, parsed]
      refine inner.trans ?_
      rw [Context.outcome, Context.outcome, List.length_cons, Nat.add_assoc, Nat.add_comm 1 h]
    · rw [Context.result_resolve,
        (Context.Entry.full stored outside (Nat.not_lt.1 below)).enter_eq]
      exact (Context.outcome_of_lt (by omega)).symm
  | unary value applied ih =>
    have inner := ih same waits
    rw [Context.evaluateTree] at inner ⊢
    rw [Tree.result_evaluate_unary, inner]
    exact Context.outcome_unary applied
  | @binary op left right l r v h k leftValue rightValue applied ihLeft ihRight =>
    have leftInner := ihLeft same (waits.mono (Nat.le_max_left h k))
    have rightInner := ihRight same (waits.mono (Nat.le_max_right h k))
    rw [Context.evaluateTree] at leftInner rightInner ⊢
    rw [Tree.result_evaluate_binary, leftInner, rightInner]
    exact Context.outcome_binary applied

/-! ## Evaluation is derived -/

/-- No token of the formula names a range function. -/
def AggregateFree (formula : String) : Prop :=
  ∀ tokens, lex formula = .ok tokens → ∀ token ∈ tokens, ∀ fn, token.kind ≠ .aggregate fn

/-- No node of the tree is a range function. -/
def Tree.AggregateFree (tree : Tree) : Prop := ∀ word ∈ tree.words, ∀ fn, word.1 ≠ .aggregate fn

theorem AggregateFree.tree {formula : String} {tree : Tree} (free : AggregateFree formula)
    (parsed : Tree.ofText formula = .ok tree) : tree.AggregateFree := by
  unfold Tree.ofText at parsed
  cases lexed : lex formula with
  | error cause => rw [lexed] at parsed; cases parsed
  | ok tokens =>
    rw [lexed] at parsed
    have words := (ofTokens_eq_ok_iff.1 parsed).words_eq
    intro word mem
    rw [words] at mem
    obtain ⟨token, kept, rfl⟩ := List.mem_map.1 mem
    exact free tokens lexed token (List.mem_filter.1 kept).1

theorem IsWordOf.aggregateFree {kind : TokenKind} {word : String}
    (isWord : IsWordOf kind word.toList) (other : ∀ fn, kind ≠ .aggregate fn) :
    AggregateFree word := by
  intro tokens lexed token mem fn
  rw [lex_eq isWord.lexes] at lexed
  cases lexed
  obtain rfl := List.mem_singleton.1 mem
  exact other fn

theorem Tree.AggregateFree.unary {kind : TokenKind} {operand : Tree}
    (free : (Tree.unary kind operand).AggregateFree) : operand.AggregateFree :=
  fun word mem => free word (List.mem_cons_of_mem _ mem)

theorem Tree.AggregateFree.binary {op : BinaryOp} {left right : Tree}
    (free : (Tree.binary (.binary op) left right).AggregateFree) :
    left.AggregateFree ∧ right.AggregateFree := by
  refine ⟨fun word mem => free word ?_, fun word mem => free word ?_⟩
  · exact List.mem_append_left _ mem
  · exact List.mem_append_right _ (List.mem_cons_of_mem _ mem)

/-- The values that a context finds at addresses are those of the formulas stored there. -/
def Context.Resolves (c : Context) : Prop :=
  ∀ a v, (c.resolve a).result = .ok v →
    ∃ cell h, c.grid.lookup a = some cell ∧ FormulaHasValue c.grid cell.formula v h

/-- A value found for a tree is derived, if those found at addresses are. -/
theorem Context.Resolves.exists_hasValue {c : Context} (resolves : c.Resolves) {tree : Tree}
    {v : Value} (free : tree.AggregateFree) (found : (c.evaluateTree tree).result = .ok v) :
    ∃ h, HasValue c.grid tree v h := by
  unfold Context.evaluateTree at found
  induction tree generalizing v with
  | leaf kind source =>
    cases kind with
    | integer =>
      rw [Tree.result_evaluate_integer] at found
      exact ⟨0, .literal (.integer found)⟩
    | float =>
      rw [Tree.result_evaluate_float] at found
      exact ⟨0, .literal (.float found)⟩
    | boolean =>
      rw [Tree.result_evaluate_boolean] at found
      exact ⟨0, .literal (.boolean found)⟩
    | string =>
      cases found
      exact ⟨0, .literal .string⟩
    | reference =>
      rw [Tree.result_evaluate_reference] at found
      obtain ⟨a, named, resolved⟩ := exists_of_bind_eq_ok found
      obtain ⟨cell, h, stored, tree, parsed, value⟩ := resolves a v resolved
      exact ⟨h + 1, .reference named stored parsed value⟩
    | _ => cases found
  | unary kind operand ih =>
    cases kind with
    | unary op =>
      rw [Tree.result_evaluate_unary] at found
      obtain ⟨operandValue, operandFound, applied⟩ := exists_of_bind_eq_ok found
      obtain ⟨h, value⟩ := ih free.unary operandFound
      exact ⟨h, .unary value applied⟩
    | _ => cases found
  | binary kind left right ihLeft ihRight =>
    cases kind with
    | binary op =>
      rw [Tree.result_evaluate_binary] at found
      obtain ⟨l, leftFound, rest⟩ := exists_of_bind_eq_ok found
      obtain ⟨r, rightFound, applied⟩ := exists_of_bind_eq_ok rest
      obtain ⟨h, leftValue⟩ := ihLeft free.binary.1 leftFound
      obtain ⟨k, rightValue⟩ := ihRight free.binary.2 rightFound
      exact ⟨max h k, .binary leftValue rightValue applied⟩
    | aggregate fn => exact absurd rfl (free (.aggregate fn, none) List.mem_cons_self fn)
    | _ => cases found

/-- When no stored formula has range functions, all contexts find values that are derived. -/
theorem Context.resolves (c : Context)
    (free : ∀ cell ∈ c.grid.cells, AggregateFree cell.formula) : c.Resolves := by
  -- by induction on what is left of the limit, which is less in the context that is entered
  induction left : c.limit - c.chain.length using Nat.strongRecOn generalizing c with
  | ind room ih =>
    intro a v resolved
    rw [Context.result_resolve] at resolved
    obtain ⟨⟨formula, inner⟩, entered, rest⟩ := exists_of_bind_eq_ok resolved
    obtain ⟨tree, parsed, found⟩ := exists_of_bind_eq_ok rest
    have deeper := Context.enter_deeper entered
    obtain ⟨⟨cell, stored, rfl⟩, _, _, rfl⟩ := Context.enter_eq_ok_iff.1 entered
    have innerResolves := ih _ (left ▸ deeper) ⟨c.grid, c.limit, a :: c.chain⟩ free rfl
    have cellFree : AggregateFree cell.formula := free cell (List.mem_of_find?_eq_some stored)
    obtain ⟨h, value⟩ := innerResolves.exists_hasValue (cellFree.tree parsed) found
    exact ⟨cell, h, stored, tree, parsed, value⟩

/-! ## Sessions -/

namespace Session

theorem result_evaluate {s : Session} {formula : String} {tree : Tree}
    (parsed : Tree.ofText formula = .ok tree) :
    (s.evaluate formula).result = (s.root.evaluateTree tree).result := by
  rw [evaluate, Traced.result_bind, Traced.result_lift, parsed]
  rfl

/-- No formula waits in the chain of the root, which is empty. -/
theorem waitsFor_root (s : Session) (h : Nat) : s.root.WaitsFor h := ⟨Nat.zero_le _, nofun⟩

theorem result_evaluate_of_hasValue {s : Session} {formula : String} {v : Value} {h : Nat}
    (value : FormulaHasValue s.grid formula v h) :
    (s.evaluate formula).result = s.root.outcome v h := by
  obtain ⟨tree, parsed, derived⟩ := value
  rw [result_evaluate parsed]
  exact derived.result_eq rfl (s.waitsFor_root h)

/-- A session evaluates a formula to the value that is derived for it, or exceeds its limit if the
derivation is higher than that. If no value is derived it fails, as long as no range function is
used anywhere. -/
theorem evaluate_spec (s : Session) (formula : String) (free : AggregateFree formula)
    (cells : ∀ cell ∈ s.grid.cells, AggregateFree cell.formula) :
    (∀ v h, FormulaHasValue s.grid formula v h →
      (h ≤ s.limit → (s.evaluate formula).result = .ok v) ∧
      (s.limit < h → (s.evaluate formula).result = .error (.depthLimit s.limit))) ∧
    ((¬ ∃ v h, FormulaHasValue s.grid formula v h) →
      ∃ cause, (s.evaluate formula).result = .error cause) := by
  constructor
  · intro v h value
    rw [result_evaluate_of_hasValue value]
    constructor
    · intro within
      exact Context.outcome_of_le (by simpa [root] using within)
    · intro beyond
      exact Context.outcome_of_lt (by simpa [root] using beyond)
  · intro absent
    cases evaluated : (s.evaluate formula).result with
    | error cause => exact ⟨cause, rfl⟩
    | ok v =>
      cases parsed : Tree.ofText formula with
      | error cause =>
        rw [evaluate, Traced.result_bind, Traced.result_lift, parsed] at evaluated
        cases evaluated
      | ok tree =>
        rw [result_evaluate parsed] at evaluated
        obtain ⟨h, value⟩ := (s.root.resolves cells).exists_hasValue (free.tree parsed) evaluated
        exact absurd ⟨v, h, tree, parsed, value⟩ absent

/-- A reference to a number needs a limit of at least one. -/
theorem evaluate_spec_reference :
    let cells := (∅ : Grid).insert ⟨1, 1⟩ "7"
    ((Session.mk cells 1).evaluate "\x7bA,1\x7d").result = .ok (.integer 7) ∧
      ((Session.mk cells 0).evaluate "\x7bA,1\x7d").result = .error (.depthLimit 0) := by
  intro cells
  have isNumber : IsWordOf .integer "7".toList := by decide
  have isReference : IsWordOf .reference "\x7bA,1\x7d".toList := by decide
  have number : FormulaHasValue cells "7" (.integer 7) 0 :=
    ⟨_, (Spells.atom rfl isNumber.lexes).group.ofText_eq, .literal (.integer rfl)⟩
  have value : FormulaHasValue cells "\x7bA,1\x7d" (.integer 7) 1 := by
    obtain ⟨tree, parsed, derived⟩ := number
    exact ⟨_, (Spells.atom rfl isReference.lexes).group.ofText_eq,
      .reference rfl (Grid.lookup_insert _ _ _ _) parsed derived⟩
  have free : ∀ cell ∈ cells.cells, AggregateFree cell.formula := by
    intro cell mem
    obtain rfl := List.mem_singleton.1 mem
    exact isNumber.aggregateFree nofun
  have referenceFree : AggregateFree "\x7bA,1\x7d" := isReference.aggregateFree nofun
  exact ⟨((evaluate_spec ⟨cells, 1⟩ _ referenceFree free).1 _ 1 value).1 (Nat.le_refl 1),
    ((evaluate_spec ⟨cells, 0⟩ _ referenceFree free).1 _ 1 value).2 Nat.one_pos⟩

end Session

end CellFormula
