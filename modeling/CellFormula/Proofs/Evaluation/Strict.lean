import CellFormula.Proofs.Evaluation.Basic
import CellFormula.Proofs.Tree.Parser

/-!
# Strict evaluation

Every operand is evaluated, from the left to the right, and before the operator looks at any of
them. No logical operator leaves its right operand out, even where the left one settles the result.
So a value is there only if all operands have one, and of several errors the one that is reported
arises first.

`postorder` lists the nodes of a tree or an expression in the order in which they are evaluated. A
node that fails though all its operands have values `FailsItself`.

Main statements: `Tree.decides_evaluate` and `Expr.decides_evaluate`, the nodes in this order decide
what comes of an evaluation; `Context.strict_spec`, the same in terms of values and errors, for the
trees that tokens are parsed into and for all expressions.
-/

namespace CellFormula

/-! ## The first failure among some nodes -/

section Failures

variable {α β ε : Type} (operands : α → List α) (value : α → Except ε β)

/-- The node fails with this error although all its operands have values. -/
def FailsItself (node : α) (e : ε) : Prop :=
  value node = .error e ∧ ∀ operand ∈ operands node, ∃ v, value operand = .ok v

/-- The error is that of the first of the nodes that fails itself. -/
def FirstFailure (nodes : List α) (e : ε) : Prop :=
  ∃ before node after, nodes = before ++ node :: after ∧ FailsItself operands value node e ∧
    ∀ other ∈ before, ∀ e, ¬ FailsItself operands value other e

/-- What comes of evaluating nodes one after the other: a value only if all of them have one, and
else the first failure. -/
inductive Decides (nodes : List α) : Except ε β → Prop
  | value {v : β} (all : ∀ node ∈ nodes, ∃ w, value node = .ok w) : Decides nodes (.ok v)
  | error {e : ε} (first : FirstFailure operands value nodes e) : Decides nodes (.error e)

variable {operands value} {nodes left right : List α} {node : α} {x : Except ε β} {e e' : ε}
theorem not_failsItself (valued : ∃ v, value node = .ok v) :
    ¬ FailsItself operands value node e := by
  rintro ⟨failed, _⟩
  obtain ⟨v, found⟩ := valued
  cases found.symm.trans failed

namespace FirstFailure

theorem append_right (first : FirstFailure operands value left e) (right : List α) :
    FirstFailure operands value (left ++ right) e := by
  obtain ⟨before, node, after, rfl, fails, earlier⟩ := first
  exact ⟨before, node, after ++ right, by simp, fails, earlier⟩

theorem append_left (first : FirstFailure operands value right e)
    (valued : ∀ node ∈ left, ∃ v, value node = .ok v) :
    FirstFailure operands value (left ++ right) e := by
  obtain ⟨before, node, after, rfl, fails, earlier⟩ := first
  refine ⟨left ++ before, node, after, by simp, fails, fun other mem e => ?_⟩
  rcases List.mem_append.1 mem with mem | mem
  · exact not_failsItself (valued other mem)
  · exact earlier other mem e

/-- There is no other first failure behind the first one. -/
theorem unique (first : FirstFailure operands value nodes e)
    (second : FirstFailure operands value nodes e') : e = e' := by
  obtain ⟨before, node, after, rfl, fails, earlier⟩ := first
  obtain ⟨before', node', after', same, fails', earlier'⟩ := second
  rcases List.append_eq_append_iff.1 same with ⟨between, rfl, rest⟩ | ⟨between, rfl, rest⟩
  · cases between with
    | nil =>
      cases rest
      exact Except.error.inj (fails.1.symm.trans fails'.1)
    | cons _ _ =>
      cases rest
      exact absurd fails (earlier' _ (by simp) e)
  · cases between with
    | nil =>
      cases rest
      exact Except.error.inj (fails.1.symm.trans fails'.1)
    | cons _ _ =>
      cases rest
      exact absurd fails' (earlier _ (by simp) e')

end FirstFailure

namespace Decides

/-- A node whose operands have values decides for itself. -/
theorem single (valued : ∀ operand ∈ operands node, ∃ v, value operand = .ok v) :
    Decides operands value [node] (value node) := by
  cases found : value node with
  | ok v => exact .value (List.forall_mem_singleton.2 ⟨v, found⟩)
  | error e => exact .error ⟨[], node, [], rfl, ⟨found, valued⟩, nofun⟩

/-- What follows is evaluated only when there is a value, and then it decides. -/
theorem bind {f : β → Except ε β} (first : Decides operands value left x)
    (next : ∀ v, x = .ok v → Decides operands value right (f v)) :
    Decides operands value (left ++ right) (x >>= f) := by
  cases first with
  | error first => exact .error (first.append_right right)
  | @value v valued =>
    have behind := next v rfl
    rw [ok_bind]
    revert behind
    generalize f v = y
    rintro (all | first)
    · exact .value (List.forall_mem_append.2 ⟨valued, all⟩)
    · exact .error (first.append_left valued)

/-- A node is computed from one operand. -/
theorem unary {operand : α} {f : β → Except ε β} (only : operands node = [operand])
    (computed : value node = value operand >>= f)
    (inner : Decides operands value nodes (value operand)) :
    Decides operands value (nodes ++ [node]) (value node) := by
  rw [computed]
  refine inner.bind fun v found => ?_
  rw [found, ok_bind] at computed
  rw [← computed]
  refine .single fun other mem => ?_
  rw [only] at mem
  exact ⟨v, List.mem_singleton.1 mem ▸ found⟩

/-- A node is computed from two operands. -/
theorem binary {a b : α} {f : β → β → Except ε β} (both : operands node = [a, b])
    (computed : value node = (do
      let l ← value a
      let r ← value b
      f l r))
    (first : Decides operands value left (value a))
    (second : Decides operands value right (value b)) :
    Decides operands value (left ++ (right ++ [node])) (value node) := by
  rw [computed]
  refine first.bind fun l foundLeft => second.bind fun r foundRight => ?_
  rw [foundLeft, ok_bind, foundRight, ok_bind] at computed
  rw [← computed]
  refine .single fun other mem => ?_
  simp only [both, List.mem_cons, List.not_mem_nil, or_false] at mem
  rcases mem with rfl | rfl
  · exact ⟨l, foundLeft⟩
  · exact ⟨r, foundRight⟩

theorem exists_of_eq_ok {v : β} (decides : Decides operands value nodes x) (found : x = .ok v) :
    ∀ node ∈ nodes, ∃ w, value node = .ok w := by
  subst found
  cases decides with
  | value all => exact all

theorem eq_error_iff (decides : Decides operands value nodes x) :
    x = .error e ↔ FirstFailure operands value nodes e := by
  cases decides with
  | value all =>
    refine ⟨nofun, ?_⟩
    rintro ⟨before, node, after, rfl, fails, _⟩
    exact absurd fails (not_failsItself (all node (by simp)))
  | error first =>
    refine ⟨fun same => Except.error.inj same ▸ first, fun other => ?_⟩
    rw [first.unique other]

/-- A right operand that fails is not hidden by its left operand, nor by what is around them. -/
theorem exists_error_of_right {a b : α} {f : β → β → Except ε β} {l : β}
    (decides : Decides operands value nodes x) (mem : node ∈ nodes)
    (computed : value node = (do
      let l ← value a
      let r ← value b
      f l r))
    (first : value a = .ok l) (second : value b = .error e) :
    value node = .error e ∧ ∃ e, x = .error e := by
  rw [first, ok_bind, second] at computed
  refine ⟨computed, ?_⟩
  cases decides with
  | value all =>
    obtain ⟨v, found⟩ := all node mem
    cases found.symm.trans computed
  | error _ => exact ⟨_, rfl⟩

end Decides

end Failures

/-! ## Trees -/

namespace Tree

/-- The parts whose values a node is computed from. The corners of a range are not evaluated. -/
def operands : Tree → List Tree
  | leaf _ _ => []
  | unary _ operand => [operand]
  | binary (.aggregate _) _ _ => []
  | binary _ left right => [left, right]

/-- The nodes in the order of evaluation: each behind its operands, and these from the left. -/
def postorder : Tree → List Tree
  | leaf kind source => [leaf kind source]
  | unary kind operand => operand.postorder ++ [unary kind operand]
  | binary (.aggregate fn) start stop => [binary (.aggregate fn) start stop]
  | binary kind left right => left.postorder ++ (right.postorder ++ [binary kind left right])

/-- All inner nodes are operators or range functions. -/
def Computes : Tree → Prop
  | leaf _ _ => True
  | unary (.unary _) operand => operand.Computes
  | binary (.aggregate _) _ _ => True
  | binary (.binary _) left right => left.Computes ∧ right.Computes
  | _ => False

end Tree

theorem IsTreeOf.computes {tokens : List Token} {tree : Tree} (stands : IsTreeOf tokens tree) :
    tree.Computes := by
  induction stands with
  | atom _ => trivial
  | parens _ _ _ ih => exact ih
  | range named _ _ =>
    rw [named]
    trivial
  | unary marked _ ih =>
    rw [marked]
    exact ih
  | binary root _ _ ihLeft ihRight =>
    rw [root.signed]
    exact ⟨ihLeft, ihRight⟩

variable {grid : Grid} {resolve : Address → Traced Value}

/-- The nodes of a tree, in the order of evaluation, decide what comes of it. -/
theorem Tree.decides_evaluate {tree : Tree} (computes : tree.Computes) :
    Decides operands (fun part => (part.evaluate grid resolve).result) tree.postorder
      (tree.evaluate grid resolve).result := by
  induction tree with
  | leaf kind source => exact .single nofun
  | unary kind operand ih =>
    cases kind with
    | unary op => exact .unary rfl (result_evaluate_unary op operand) (ih computes)
    | _ => cases computes
  | binary kind left right ihLeft ihRight =>
    cases kind with
    | binary op =>
      exact .binary rfl (result_evaluate_binary op left right) (ihLeft computes.1)
        (ihRight computes.2)
    | aggregate fn => exact .single nofun
    | _ => cases computes

/-! ## Expressions -/

namespace Expr

/-- The parts whose values an expression is computed from. -/
def operands : Expr → List Expr
  | unary _ operand => [operand]
  | binary _ left right => [left, right]
  | _ => []

/-- The parts in the order of evaluation: each behind its operands, and these from the left. -/
def postorder : Expr → List Expr
  | unary op operand => operand.postorder ++ [unary op operand]
  | binary op left right => left.postorder ++ (right.postorder ++ [binary op left right])
  | other => [other]

/-- The parts of an expression, in the order of evaluation, decide what comes of it. -/
theorem decides_evaluate (expr : Expr) :
    Decides operands (fun part => (part.evaluate grid resolve).result) expr.postorder
      (expr.evaluate grid resolve).result := by
  induction expr with
  | value _ | reference _ | aggregate _ _ => exact .single nofun
  | unary op operand ih => exact .unary rfl (result_evaluate_unary op operand) ih
  | binary op left right ihLeft ihRight =>
    exact .binary rfl (result_evaluate_binary op left right) ihLeft ihRight

end Expr

/-! ## Contexts -/

namespace Context

/-- In every context, a tree that tokens are parsed into has a value only if all its operands have
one, at every depth. Otherwise its error is that of the first node, in the order of evaluation, that
fails itself. So what fails on the right of an operator is not hidden by what stands on its left,
also where that would settle a logical operator. The same holds of all expressions. -/
theorem strict_spec (c : Context) :
    (∀ tokens tree, Tree.ofTokens tokens = .ok tree →
      let value : Tree → Except FormulaError Value := fun part => (c.evaluateTree part).result
      (∀ v, value tree = .ok v → ∀ part ∈ tree.postorder, ∃ w, value part = .ok w) ∧
      (∀ e, value tree = .error e ↔ FirstFailure Tree.operands value tree.postorder e) ∧
      ∀ op left right l e, .binary (.binary op) left right ∈ tree.postorder → value left = .ok l →
        value right = .error e →
        value (.binary (.binary op) left right) = .error e ∧ ∃ e, value tree = .error e) ∧
    ∀ expr : Expr,
      let value : Expr → Except FormulaError Value := fun part => (c.evaluateExpr part).result
      (∀ v, value expr = .ok v → ∀ part ∈ expr.postorder, ∃ w, value part = .ok w) ∧
      (∀ e, value expr = .error e ↔ FirstFailure Expr.operands value expr.postorder e) ∧
      ∀ op left right l e, .binary op left right ∈ expr.postorder → value left = .ok l →
        value right = .error e →
        value (.binary op left right) = .error e ∧ ∃ e, value expr = .error e := by
  constructor
  · intro tokens tree parsed value
    have decides : Decides Tree.operands value tree.postorder (value tree) :=
      Tree.decides_evaluate (ofTokens_eq_ok_iff.1 parsed).computes
    exact ⟨fun v => decides.exists_of_eq_ok, fun e => decides.eq_error_iff,
      fun op left right _ _ mem => decides.exists_error_of_right mem
        (Tree.result_evaluate_binary op left right)⟩
  · intro expr value
    have decides : Decides Expr.operands value expr.postorder (value expr) := expr.decides_evaluate
    exact ⟨fun v => decides.exists_of_eq_ok, fun e => decides.eq_error_iff,
      fun op left right _ _ mem => decides.exists_error_of_right mem
        (Expr.result_evaluate_binary op left right)⟩

/-- A logical operator that its left operand settles fails with its right operand all the same. -/
theorem strict_spec_settled :
    let token (kind : TokenKind) (source : String) : Token := ⟨kind, source, ⟨0, 0⟩, none⟩
    let tokens : List Token :=
      [token .boolean "True", token (.binary .or) "||", token .leftParen "(",
        token .integer "1", token (.binary .divide) "/", token .integer "0", token .rightParen ")"]
    let quotient : Tree := .binary (.binary .divide) (.leaf .integer "1") (.leaf .integer "0")
    let tree : Tree := .binary (.binary .or) (.leaf .boolean "True") quotient
    let c : Context := ⟨∅, 0, []⟩
    let e : FormulaError := .divisionByZero (.operands 1 .divide 0)
    Tree.ofTokens tokens = .ok tree ∧
      (c.evaluateTree (.leaf .boolean "True")).result = .ok (.boolean true) ∧
      (c.evaluateTree quotient).result = .error e ∧ (c.evaluateTree tree).result = .error e ∧
      FirstFailure Tree.operands (fun part => (c.evaluateTree part).result) tree.postorder e := by
  intro token tokens quotient tree c e
  have root :
      IsRoot [token .integer "1"] (token (.binary .divide) "/") .divide [token .integer "0"] :=
    ⟨rfl, rfl, nofun, nofun⟩
  have group :
      IsTreeOf [token .integer "1", token (.binary .divide) "/", token .integer "0"] quotient :=
    .binary root (.atom rfl) (.atom rfl)
  have outer : IsRoot [token .boolean "True"] (token (.binary .or) "||") .or (tokens.drop 2) :=
    ⟨rfl, rfl, nofun, nofun⟩
  have parsed : Tree.ofTokens tokens = .ok tree :=
    ofTokens_eq_ok_iff.2 (.binary outer (.atom rfl) (.parens rfl rfl group))
  obtain ⟨_, failure, settled⟩ := (strict_spec c).1 tokens tree parsed
  have first : (c.evaluateTree (.leaf .boolean "True")).result = .ok (.boolean true) := rfl
  have second : (c.evaluateTree quotient).result = .error e := rfl
  have mem : tree ∈ tree.postorder := by decide
  obtain ⟨failed, _⟩ := settled .or _ _ _ _ mem first second
  exact ⟨parsed, first, second, failed, (failure e).1 failed⟩

end Context

end CellFormula
