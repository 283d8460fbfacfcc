import CellFormula.Proofs.Decimal.Notation
import CellFormula.Proofs.Expr.Tree
import CellFormula.Proofs.Tree.Spelling

/-!
# Expressions read back

Main statements: `Expr.spells`, the text of an expression spells its tree; `Expr.ofText_text`, the
text reads back as that tree, or is refused by the lexer if an address in it has no reference form.
-/

namespace CellFormula

/-! ## Literals -/

theorem spells_digits (n : Nat) :
    Spells .operand (Numeral.ofNat n) (.leaf .integer (Numeral.ofNat n)) := by
  refine .atom rfl ?_
  rw [Numeral.ofNat, String.toList_ofList]
  exact (isWordOf_digits (Numeral.digits_ne_nil n) fun _ => Numeral.isDigit_of_mem_digits).lexes

theorem isWordOf_floatText {x : Float} (finite : x.isFinite = true)
    (positive : isNegative x = false) : IsWordOf .float (floatText x).toList := by
  obtain ⟨whole, fraction, d, shape, positional, _⟩ := exists_floatText finite positive
  rw [shape]
  exact isWordOf_fraction positional.whole_ne_nil positional.whole_digits
    positional.fraction_ne_nil positional.fraction_digits
theorem spells_floatText {x : Float} (finite : x.isFinite = true)
    (positive : isNegative x = false) :
    Spells .operand (floatText x) (.leaf .float (floatText x)) :=
  .atom rfl (isWordOf_floatText finite positive).lexes

/-- The literal of an integer spells its tree, and it is an operand if it is a single word. -/
theorem spells_integer (n : Integer) :
    Spells .group (Value.integer n).literal (Value.integer n).tree ∧
      ((Value.integer n).isWord = true →
        Spells .operand (Value.integer n).literal (Value.integer n).tree) := by
  have zero : Spells .operand "0" (.leaf .integer "0") := .atom rfl (IsWordOf.lexes (by decide))
  have minus : "0 - " = "0" ++ " " ++ BinaryOp.subtract.symbol ++ " " := rfl
  rw [Value.literal, Value.tree, Value.isWord, minus]
  by_cases least : n = Int64.minValue
  · have one : Spells .operand "1" (.leaf .integer "1") := .atom rfl (IsWordOf.lexes (by decide))
    have most : Spells .operand "9223372036854775807" (.leaf .integer "9223372036854775807") :=
      .atom rfl (IsWordOf.lexes (by decide))
    have minusOne : " - 1" = " " ++ (BinaryOp.subtract.symbol ++ (" " ++ "1")) := rfl
    rw [if_pos least, if_pos least, Integer.text_maxValue, minusOne, ← String.append_assoc,
      ← String.append_assoc, ← String.append_assoc]
    refine ⟨.binary .subtract (.parenthesized (.binary .subtract zero most)) one, ?_⟩
    subst least
    exact fun impossible => absurd impossible (by decide)
  · rw [if_neg least, if_neg least]
    by_cases negative : n.toInt < 0
    · rw [if_pos negative, if_pos negative]
      refine ⟨.binary .subtract zero (spells_digits _), fun nonneg => ?_⟩
      exact absurd (of_decide_eq_true nonneg) (Int.not_le.2 negative)
    · rw [if_neg negative, if_neg negative, Integer.text_of_nonneg (Int.not_lt.1 negative)]
      exact ⟨(spells_digits _).group, fun _ => spells_digits _⟩

/-- The literal of a float spells its tree, and it is an operand if it is a single word. -/
theorem spells_float (x : Float) :
    Spells .group (Value.float x).literal (Value.float x).tree ∧
      ((Value.float x).isWord = true →
        Spells .operand (Value.float x).literal (Value.float x).tree) := by
  have zero : Spells .operand "0.0" (.leaf .float "0.0") := .atom rfl (IsWordOf.lexes (by decide))
  have one : Spells .operand "1.0" (.leaf .float "1.0") := .atom rfl (IsWordOf.lexes (by decide))
  have infinity := Spells.binary .divide one zero
  have minus : "0.0 - " = "0.0" ++ " " ++ BinaryOp.subtract.symbol ++ " " := rfl
  have infinite : "1.0 / 0.0" = "1.0" ++ " " ++ BinaryOp.divide.symbol ++ " " ++ "0.0" := rfl
  have undefined : "0.0 / 0.0" = "0.0" ++ " " ++ BinaryOp.divide.symbol ++ " " ++ "0.0" := rfl
  rw [Value.literal, Value.tree, Value.isWord, minus, infinite, undefined]
  by_cases finite : x.isFinite = true
  · obtain ⟨noNaN, noInf⟩ := isFinite_iff.1 finite
    simp only [noNaN, noInf, finite, Bool.false_eq_true, if_false]
    cases negative : isNegative x with
    | true =>
      have finiteNeg : (-x).isFinite = true := (isFinite_neg x).trans finite
      have positive : isNegative (-x) = false := by rw [isNegative_neg finite, negative]; rfl
      rw [if_pos rfl, if_pos rfl]
      refine ⟨.binary .subtract zero (spells_floatText finiteNeg positive), ?_⟩
      intro word
      cases word
    | false =>
      have spells := spells_floatText finite negative
      rw [if_neg Bool.false_ne_true, if_neg Bool.false_ne_true]
      exact ⟨spells.group, fun _ => spells⟩
  · rw [eq_false_of_ne_true finite]
    refine ⟨?_, fun word => by cases word⟩
    cases nan : x.isNaN with
    | true =>
      rw [if_pos rfl, if_pos rfl]
      exact .binary .divide zero zero
    | false =>
      have isInf : x.isInf = true := by
        rw [isFinite_iff, nan] at finite
        simpa using finite
      rw [isInf, if_neg Bool.false_ne_true, if_neg Bool.false_ne_true, if_pos rfl, if_pos rfl]
      cases isNegative x with
      | true => exact .binary .subtract zero (.parenthesized infinity)
      | false => exact infinity

/-- The literal of a value spells its tree, and it is an operand if it is a single word. -/
theorem Value.spells {v : Value} (unquoted : v.Unquoted) :
    Spells .group v.literal v.tree ∧ (v.isWord = true → Spells .operand v.literal v.tree) := by
  cases v with
  | integer n => exact spells_integer n
  | float x => exact spells_float x
  | boolean b =>
    have word : Spells .operand (Value.boolean b).literal (Value.boolean b).tree := by
      cases b <;> exact .atom rfl (IsWordOf.lexes (by decide))
    exact ⟨word.group, fun _ => word⟩
  | string s =>
    have word : Spells .operand (Value.string s).literal (Value.string s).tree := .string unquoted
    exact ⟨word.group, fun _ => word⟩

/-! ## Expressions -/

namespace Expr

/-- The text of an expression where it is an operand. -/
def operandText (e : Expr) : String := if e.isWord then e.text else parenthesized e.text

theorem spells_operandText {e : Expr} (group : Spells .group e.text e.tree)
    (word : e.isWord = true → Spells .operand e.text e.tree) :
    Spells .operand e.operandText e.tree := by
  rw [operandText]
  split
  · next isWord => exact word isWord
  · exact group.parenthesized

/-- The text of an expression spells its tree. -/
theorem spells {e : Expr} (unquoted : e.Unquoted) (referable : e.Referable) :
    Spells .group e.text e.tree ∧ Spells .operand e.operandText e.tree := by
  -- operands first: a group in parentheses is an operand, but an operand cannot be cut open
  induction e with
  | value v =>
    obtain ⟨group, word⟩ := Value.spells (unquoted v List.mem_cons_self)
    exact ⟨group, spells_operandText group word⟩
  | reference a =>
    have word : Spells .operand (reference a).text (reference a).tree :=
      .atom rfl (lexes_reference (referable_reference.1 referable))
    exact ⟨word.group, spells_operandText word.group fun _ => word⟩
  | unary op operand ih =>
    obtain ⟨_, inner⟩ := ih (unquoted_unary.1 unquoted) (referable_unary.1 referable)
    have group : Spells .group (unary op operand).text (unary op operand).tree := .unary op inner
    exact ⟨group, spells_operandText group nofun⟩
  | binary op left right ihLeft ihRight =>
    obtain ⟨leftUnquoted, rightUnquoted⟩ := unquoted_binary.1 unquoted
    obtain ⟨leftReferable, rightReferable⟩ := referable_binary.1 referable
    obtain ⟨_, leftInner⟩ := ihLeft leftUnquoted leftReferable
    obtain ⟨_, rightInner⟩ := ihRight rightUnquoted rightReferable
    have group : Spells .group (binary op left right).text (binary op left right).tree :=
      .binary op leftInner rightInner
    exact ⟨group, spells_operandText group nofun⟩
  | aggregate fn range =>
    obtain ⟨start, stop⟩ := referable_aggregate.1 referable
    have group : Spells .group (aggregate fn range).text (aggregate fn range).tree :=
      .range start stop
    exact ⟨group, spells_operandText group nofun⟩

end Expr

/-! ## Addresses without a reference form -/

theorem dark_integer {n : Integer} {c : Char} (mem : c ∈ n.text.toList) : isBlank c = false := by
  rcases Numeral.of_mem_ofInt mem with rfl | digit
  · rfl
  · exact isBlank_of_isDigit digit

/-- An address without a reference form is written as a pair, which begins with a word that is no
token. -/
theorem refuses_address {a : Address} (unreferable : ¬ a.Referable) :
    Refuses '(' a.text.toList := by
  have apart : a.text = "(" ++ a.x.text ++ "," ++ " " ++ (a.y.text ++ ")") := by
    rw [Address.text_eq_of_not_referable unreferable, show ", " = "," ++ " " from rfl]
    simp only [String.append_assoc]
  obtain ⟨d, word, front⟩ : ∃ d word, a.x.text.toList ++ [','] = d :: word :=
    List.exists_cons_of_ne_nil (by simp)
  have pair : ("(" ++ a.x.text ++ ",").toList = '(' :: d :: word := by
    rw [← front]
    simp [String.toList_append]
  rw [apart]
  refine refuses_spaced_left _ ?_
  rw [pair]
  refine refuses_of_word (by decide) ?_ ?_
  · rw [← front]
    intro c mem
    rcases List.mem_cons.1 mem with rfl | mem
    · rfl
    · rcases List.mem_append.1 mem with mem | mem
      · exact dark_integer mem
      · obtain rfl : c = ',' := List.mem_singleton.1 mem
        rfl
  · exact wordTokens_bracket (Or.inr rfl) (isReference_of_head (by decide))

namespace Expr

theorem refuses_operandText {e : Expr} (refuses : Refuses '(' e.text.toList) :
    Refuses '(' e.operandText.toList := by
  rw [operandText]
  split
  · exact refuses
  · rw [parenthesized_eq]
    exact refuses_spaced_left _ (refuses_spaced_right lexes_leftParen refuses)

/-- The text of an expression with an address that has no reference form is refused by the lexer. -/
theorem refuses {e : Expr} (unquoted : e.Unquoted) (unreferable : ¬ e.Referable) :
    Refuses '(' e.text.toList := by
  induction e with
  | value v => exact absurd nofun unreferable
  | reference a =>
    exact refuses_address fun referable => unreferable (referable_reference.2 referable)
  | unary op operand ih =>
    exact refuses_spaced_right (lexes_unary op)
      (refuses_operandText (ih (unquoted_unary.1 unquoted) (mt referable_unary.2 unreferable)))
  | binary op left right ihLeft ihRight =>
    obtain ⟨leftUnquoted, rightUnquoted⟩ := unquoted_binary.1 unquoted
    show Refuses '(' (left.operandText ++ " " ++ op.symbol ++ " " ++ right.operandText).toList
    -- the left operand is lexed first, so the right one matters only when the left one is fine
    by_cases leftReferable : left.Referable
    · obtain ⟨tokens, lexes, _⟩ := (spells leftUnquoted leftReferable).2
      have rightUnreferable : ¬ right.Referable := fun rightReferable =>
        unreferable (referable_binary.2 ⟨leftReferable, rightReferable⟩)
      exact refuses_spaced_right (lexes_spaced lexes (lexes_binary op))
        (refuses_operandText (ihRight rightUnquoted rightUnreferable))
    · exact refuses_spaced_left _ (refuses_spaced_left _
        (refuses_operandText (ihLeft leftUnquoted leftReferable)))
  | aggregate fn range =>
    show Refuses '(' (fn.name ++ " " ++ range.start.text ++ " " ++ range.stop.text).toList
    by_cases start : range.start.Referable
    · have stop : ¬ range.stop.Referable := fun stop =>
        unreferable (referable_aggregate.2 ⟨start, stop⟩)
      exact refuses_spaced_right (lexes_spaced (lexes_aggregate fn) (lexes_reference start))
        (refuses_address stop)
    · exact refuses_spaced_left _
        (refuses_spaced_right (lexes_aggregate fn) (refuses_address start))

/-- The text of an expression reads back as its tree, if every address in it can be read back;
otherwise it is refused by the lexer, and so never read as another tree. -/
theorem ofText_text (e : Expr) (unquoted : e.Unquoted) :
    (e.Referable →
      Tree.ofText e.text = .ok e.tree ∧ ∀ a ∈ e.addresses, readReference a.text = .ok a) ∧
    (¬ e.Referable → ∃ word span, Tree.ofText e.text = .error (.lex word span)) := by
  constructor
  · intro referable
    exact ⟨(spells unquoted referable).1.ofText_eq,
      fun a mem => readReference_text (referable a mem)⟩
  · intro unreferable
    obtain ⟨word, span, refused⟩ := lex_of_refuses (refuses unquoted unreferable) (by decide)
    refine ⟨word, span, ?_⟩
    rw [Tree.ofText, refused]
    rfl

/-- The product of -3 and a cell reads back, and with a cell below row 0 it does not. -/
theorem ofText_text_product :
    (Tree.ofText (binary .multiply (value (.integer (-3))) (reference ⟨1, 2⟩)).text =
        .ok (binary .multiply (value (.integer (-3))) (reference ⟨1, 2⟩)).tree ∧
      ∀ a ∈ [⟨1, 2⟩], readReference (Address.text a) = .ok a) ∧
    ∃ word span,
      Tree.ofText (binary .multiply (value (.integer (-3))) (reference ⟨1, -2⟩)).text =
        .error (.lex word span) := by
  constructor
  · exact (ofText_text (binary .multiply (value (.integer (-3))) (reference ⟨1, 2⟩))
      (by decide)).1 (by decide)
  · exact (ofText_text (binary .multiply (value (.integer (-3))) (reference ⟨1, -2⟩))
      (by decide)).2 (by decide)

end Expr

end CellFormula
