import CellFormula.Proofs.Evaluation.Basic
import CellFormula.Proofs.Operator.Typing
import CellFormula.Proofs.Token.Source
import CellFormula.Proofs.Tree.Spelling

/-!
# Types of trees

A tree that reads no cells has a type, which follows from the kinds of its literals and from its
operators. Types are never checked before a tree is evaluated, and still they say what comes of it:
a value of the type of the tree, or a fault in a computation. If the tree has no type, then some
operator in it refuses its operands.

Main statements: `Tree.agrees_evaluate`, what a tree is evaluated to agrees with its type;
`Context.typing_spec`, the same for the tree of a formula, in the words of values and errors.
-/

namespace CellFormula

namespace Tree

/-- The type of the values of a tree, going by its literals and operators. -/
def type? : Tree → Option ValueType
  | leaf .integer _ => some .integer
  | leaf .float _ => some .float
  | leaf .boolean _ => some .boolean
  | leaf .string _ => some .string
  | unary (.unary op) operand => do op.type? (← operand.type?)
  | binary (.binary op) left right => do op.type? (← left.type?) (← right.type?)
  | _ => none

/-- No node of the tree is a reference or a function of a range. -/
def Closed (tree : Tree) : Prop :=
  ∀ word ∈ tree.words, word.1 ≠ .reference ∧ ∀ fn, word.1 ≠ .aggregate fn

/-- The reasons for which a tree that has a type can fail: a fault in a computation, or an integer
in the tree that is too large. -/
inductive Faults (tree : Tree) : FormulaError → Prop
  | computation {e : FormulaError} (fault : e.IsFault) : Faults tree e
  | literal {source : String} (mem : (.integer, some source) ∈ tree.words)
      (large : ¬ Integer.Fits (Numeral.value source.toList)) :
      Faults tree (.type (.integerLiteral source .tooLarge))

section Parts

variable {tree part : Tree} {e : FormulaError}

theorem Faults.mono (fault : part.Faults e) (parts : part.words ⊆ tree.words) : tree.Faults e := by
  cases fault with
  | computation fault => exact .computation fault
  | literal mem large => exact .literal (parts mem) large

theorem Closed.mono (closed : tree.Closed) (parts : part.words ⊆ tree.words) : part.Closed :=
  fun word mem => closed word (parts mem)
theorem WellSpelt.mono (spelt : tree.WellSpelt) (parts : part.words ⊆ tree.words) :
    part.WellSpelt :=
  fun kind source mem => spelt kind source (parts mem)

end Parts

variable {grid : Grid} {resolve : Address → Traced Value} {tree : Tree}
theorem agrees_evaluateLeaf {kind : TokenKind} {source : String}
    (closed : (leaf kind source).Closed) (spelt : (leaf kind source).WellSpelt) :
    Agrees (leaf kind source).Faults ((leaf kind source).evaluate grid resolve).result
      (leaf kind source).type? := by
  have admits := spelt kind source (List.mem_singleton.2 rfl)
  cases kind with
  | integer =>
    rw [result_evaluate_integer]
    rcases Value.readInteger_of_isNumeral admits with ⟨n, found, _⟩ | ⟨failed, large⟩
    · rw [found]
      exact .value (.integer n)
    · rw [failed]
      exact .fault (.literal (List.mem_singleton.2 rfl) large) .integer
  | float =>
    obtain ⟨x, found⟩ := Value.exists_readFloat_of_isFraction admits
    rw [result_evaluate_float, found]
    exact .value (.float x)
  | boolean =>
    obtain ⟨b, found⟩ := Value.exists_readBoolean_of_word admits
    rw [result_evaluate_boolean, found]
    exact .value (.boolean b)
  | string => exact .value (.string source)
  | reference => exact absurd rfl (closed _ (List.mem_singleton.2 rfl)).1
  | _ => exact .illTyped _

/-- What a tree is evaluated to agrees with its type, if it reads no cells and its literals are
spelt as their kinds are. -/
theorem agrees_evaluate (closed : tree.Closed) (spelt : tree.WellSpelt) :
    Agrees tree.Faults (tree.evaluate grid resolve).result tree.type? := by
  induction tree with
  | leaf kind source => exact agrees_evaluateLeaf closed spelt
  | unary kind operand ih =>
    cases kind with
    | unary op =>
      have parts : operand.words ⊆ (unary (.unary op) operand).words := List.subset_cons_self ..
      have inner := (ih (closed.mono parts) (spelt.mono parts)).mono fun _ fault => fault.mono parts
      rw [result_evaluate_unary]
      exact inner.bind fun v => (op.agrees_apply v).mono fun _ => .computation
    | _ => exact .illTyped _
  | binary kind left right ihLeft ihRight =>
    cases kind with
    | binary op =>
      have lefts : left.words ⊆ (binary (.binary op) left right).words := List.subset_append_left ..
      have rights : right.words ⊆ (binary (.binary op) left right).words := fun _ mem =>
        List.mem_append_right _ (List.mem_cons_of_mem _ mem)
      have first :=
        (ihLeft (closed.mono lefts) (spelt.mono lefts)).mono fun _ fault => fault.mono lefts
      have second := (ihRight (closed.mono rights) (spelt.mono rights)).mono fun _ fault =>
        fault.mono rights
      rw [result_evaluate_binary]
      exact first.bind fun l => second.bind fun r =>
        (op.agrees_apply l r).mono fun _ => .computation
    | aggregate fn => exact absurd rfl ((closed (.aggregate fn, none) List.mem_cons_self).2 fn)
    | _ => exact .illTyped _

end Tree

namespace Context

/-- A formula that reads no cells is evaluated, in every context, as its type says. If it has a
value, then it has a type, and the value is of that type. If it has no type then it fails. If it has
a type then it fails only by a division by zero, an overflow, an integer raised to a negative power,
a float that is turned into an integer but does not fit, or an integer in the formula that does not
fit. -/
theorem typing_spec {formula : String} {tree : Tree} (parsed : Tree.ofText formula = .ok tree)
    (closed : tree.Closed) (c : Context) :
    (∀ v, (c.evaluateTree tree).result = .ok v → tree.type? = some v.type) ∧
    (tree.type? = none → ∃ e, (c.evaluateTree tree).result = .error e) ∧
    ∀ type e, tree.type? = some type → (c.evaluateTree tree).result = .error e → tree.Faults e := by
  have agrees : Agrees tree.Faults (c.evaluateTree tree).result tree.type? :=
    Tree.agrees_evaluate closed (Tree.wellSpelt_of_ofText parsed)
  exact ⟨agrees.type_eq_of_eq_ok, agrees.exists_error_of_type_eq_none,
    fun type e typed => agrees.faults_of_eq_error typed⟩

/-- A comparison has a value. Compared in turn to an integer it has no type, and with a quotient by
zero on one side it has one but fails. -/
theorem typing_spec_compared :
    let c : Context := ⟨∅, 0, []⟩
    let zero : Tree := .leaf .integer "0"
    let one : Tree := .leaf .integer "1"
    let compared : Tree := .binary (.binary .lessThan) zero one
    let chained : Tree := .binary (.binary .lessThan) compared one
    let divided : Tree := .binary (.binary .lessThan) (.binary (.binary .divide) one zero) one
    let e : FormulaError := .divisionByZero (.operands 1 .divide 0)
    (Tree.ofText "0 < 1" = .ok compared ∧ (c.evaluateTree compared).result = .ok (.boolean true) ∧
      compared.type? = some .boolean) ∧
    (Tree.ofText "( 0 < 1 ) < 1" = .ok chained ∧ chained.type? = none ∧
      ∃ e, (c.evaluateTree chained).result = .error e) ∧
    Tree.ofText "( 1 / 0 ) < 1" = .ok divided ∧ divided.type? = some .boolean ∧
      (c.evaluateTree divided).result = .error e ∧ divided.Faults e := by
  intro c zero one compared chained divided e
  have isZero : IsWordOf .integer "0".toList := by decide
  have isOne : IsWordOf .integer "1".toList := by decide
  have spellsZero : Spells .operand "0" zero := .atom rfl isZero.lexes
  have spellsOne : Spells .operand "1" one := .atom rfl isOne.lexes
  have spellsCompared := Spells.binary .lessThan spellsZero spellsOne
  have parsedCompared : Tree.ofText "0 < 1" = .ok compared := spellsCompared.ofText_eq
  have parsedChained : Tree.ofText "( 0 < 1 ) < 1" = .ok chained :=
    (Spells.binary .lessThan spellsCompared.parenthesized spellsOne).ofText_eq
  have parsedDivided : Tree.ofText "( 1 / 0 ) < 1" = .ok divided :=
    (Spells.binary .lessThan (Spells.binary .divide spellsOne spellsZero).parenthesized
      spellsOne).ofText_eq
  have closed : compared.Closed ∧ chained.Closed ∧ divided.Closed := by
    simp [Tree.Closed, Tree.words, compared, chained, divided, zero, one]
  obtain ⟨ofValue, _, _⟩ := typing_spec parsedCompared closed.1 c
  obtain ⟨_, ofNone, _⟩ := typing_spec parsedChained closed.2.1 c
  obtain ⟨_, _, ofError⟩ := typing_spec parsedDivided closed.2.2 c
  have value : (c.evaluateTree compared).result = .ok (.boolean true) := rfl
  have failed : (c.evaluateTree divided).result = .error e := rfl
  exact ⟨⟨parsedCompared, value, ofValue _ value⟩, ⟨parsedChained, rfl, ofNone rfl⟩,
    parsedDivided, rfl, failed, ofError _ _ rfl failed⟩

end Context

end CellFormula
