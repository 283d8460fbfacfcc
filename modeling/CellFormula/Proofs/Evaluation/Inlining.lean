import CellFormula.Proofs.Evaluation.Natural
import CellFormula.Proofs.Tree.Hole

/-!
# Inlining

A reference may be replaced by the formula to which it refers, in parentheses. The formula is then
evaluated in the context of the reference, whose chain is shorter. It has the same value there,
unless range functions are used: these pass over a reference that is refused, and the shorter chain
refuses less.

Main statements: `Hole.exists_of_evaluate_fill`, a tree depends on what fills a hole in it by its
value alone; `Session.exists_of_resolve_root`, what an address is resolved to its formula is
evaluated to; `Session.evaluate_eq_evaluateTokens`, a formula is evaluated like its tokens;
`Session.evaluateTokens_inline`, which keep their value when a reference among them is replaced.
-/

namespace CellFormula

/-- If a tree has a value, so has what fills a hole in it, and the tree keeps its value when the
hole is filled otherwise with the same value. -/
theorem Hole.exists_of_evaluate_fill {grid : Grid} {resolve : Address → Traced Value} {hole : Hole}
    {part : Tree} {v : Value} (found : ((hole.fill part).evaluate grid resolve).result = .ok v) :
    ∃ w, (part.evaluate grid resolve).result = .ok w ∧
      ∀ other : Tree, (other.evaluate grid resolve).result = .ok w →
        ((hole.fill other).evaluate grid resolve).result = .ok v := by
  induction hole generalizing v with
  | here => exact ⟨v, found, fun _ same => same⟩
  | unary op hole ih =>
    rw [fill, Tree.result_evaluate_unary] at found
    obtain ⟨operand, operandFound, applied⟩ := exists_of_bind_eq_ok found
    obtain ⟨w, partFound, keeps⟩ := ih operandFound
    refine ⟨w, partFound, fun other same => ?_⟩
    rw [fill, Tree.result_evaluate_unary, keeps other same]
    exact applied
  | onLeft op hole right ih =>
    rw [fill, Tree.result_evaluate_binary] at found
    obtain ⟨l, leftFound, rest⟩ := exists_of_bind_eq_ok found
    obtain ⟨w, partFound, keeps⟩ := ih leftFound
    refine ⟨w, partFound, fun other same => ?_⟩
    rw [fill, Tree.result_evaluate_binary, keeps other same]
    exact rest
  | onRight op left hole ih =>
    rw [fill, Tree.result_evaluate_binary] at found
    obtain ⟨l, leftFound, rest⟩ := exists_of_bind_eq_ok found
    obtain ⟨r, rightFound, applied⟩ := exists_of_bind_eq_ok rest
    obtain ⟨w, partFound, keeps⟩ := ih rightFound
    refine ⟨w, partFound, fun other same => ?_⟩
    rw [fill, Tree.result_evaluate_binary, leftFound, keeps other same]
    exact applied

namespace Session

variable {s : Session}

/-- The value of a formula that is given as tokens. -/
def evaluateTokens (s : Session) (tokens : List Token) : Traced Value := do
  let tree ← Tree.ofTokens tokens
  s.root.evaluateTree tree

/-- A session evaluates a formula like the tokens that it lexes to. -/
theorem evaluate_eq_evaluateTokens {formula : String} {tokens : List Token}
    (lexed : lex formula = .ok tokens) : s.evaluate formula = s.evaluateTokens tokens := by
  rw [evaluate, Tree.ofText, lexed]
  rfl

theorem result_evaluateTokens_of_isTreeOf {tokens : List Token} {tree : Tree}
    (stands : IsTreeOf tokens tree) :
    (s.evaluateTokens tokens).result = (s.root.evaluateTree tree).result := by
  rw [evaluateTokens, Traced.result_bind, Traced.result_lift, ofTokens_eq_ok_iff.2 stands]
  rfl

theorem exists_of_evaluateTokens {tokens : List Token} {v : Value}
    (found : (s.evaluateTokens tokens).result = .ok v) :
    ∃ tree, IsTreeOf tokens tree ∧ (s.root.evaluateTree tree).result = .ok v := by
  rw [evaluateTokens, Traced.result_bind, Traced.result_lift] at found
  obtain ⟨tree, parsed, evaluated⟩ := exists_of_bind_eq_ok found
  exact ⟨tree, ofTokens_eq_ok_iff.1 parsed, evaluated⟩

/-- The value that an address is resolved to is that of its formula, which needs less of the
limit. -/
theorem exists_of_resolve_root (cells : ∀ cell ∈ s.grid.cells, AggregateFree cell.formula)
    {a : Address} {v : Value} (resolved : (s.root.resolve a).result = .ok v) :
    ∃ cell tree, s.grid.lookup a = some cell ∧ Tree.ofText cell.formula = .ok tree ∧
      (s.root.evaluateTree tree).result = .ok v := by
  rw [Context.result_resolve] at resolved
  obtain ⟨⟨formula, inner⟩, entered, rest⟩ := exists_of_bind_eq_ok resolved
  obtain ⟨tree, parsed, found⟩ := exists_of_bind_eq_ok rest
  obtain ⟨⟨cell, stored, rfl⟩, _, below, rfl⟩ := Context.enter_eq_ok_iff.1 entered
  have free := (cells cell (List.mem_of_find?_eq_some stored)).tree parsed
  obtain ⟨h, value⟩ : ∃ h, HasValue s.grid tree v h :=
    (Context.resolves _ cells).exists_hasValue free found
  have innerWaits := (s.waitsFor_root (h + 1)).enter below stored ⟨tree, parsed, value⟩
  rw [value.result_eq rfl innerWaits] at found
  have deeper : 1 + h ≤ s.limit := Context.le_of_outcome found
  refine ⟨cell, tree, stored, parsed, ?_⟩
  rw [value.result_eq rfl (s.waitsFor_root h)]
  exact Context.outcome_of_le (Nat.le_trans (Nat.add_le_add_right (Nat.zero_le 1) h) deeper)

/-- A token list that has a value keeps it when a reference, which is no corner of a range, is
replaced by the formula to which it refers, in parentheses. That the formula is no assignment need
not be said, for it has a value. -/
theorem evaluateTokens_inline {left right body : List Token} {token opening closing : Token}
    {a : Address} {cell : Cell} {v : Value}
    (cells : ∀ cell ∈ s.grid.cells, AggregateFree cell.formula)
    (isReference : token.kind = .reference) (noCorner : ¬ CornerDue left)
    (named : readReference token.source = .ok a) (stored : s.grid.lookup a = some cell)
    (lexed : lex cell.formula = .ok body) (opens : opening.kind = .leftParen)
    (closes : closing.kind = .rightParen)
    (found : (s.evaluateTokens (left ++ token :: right)).result = .ok v) :
    (s.evaluateTokens (left ++ (opening :: body ++ [closing]) ++ right)).result = .ok v := by
  obtain ⟨tree, stands, evaluated⟩ := exists_of_evaluateTokens found
  have atom : token.kind.isAtom = true := by rw [isReference]; rfl
  obtain ⟨hole, rfl, between⟩ := stands.exists_hole atom noCorner
  obtain ⟨w, resolved, keeps⟩ := Hole.exists_of_evaluate_fill evaluated
  rw [isReference, Tree.result_evaluate_reference, named] at resolved
  obtain ⟨other, inner, otherStored, parsed, innerEvaluated⟩ :=
    exists_of_resolve_root cells resolved
  cases stored.symm.trans otherStored
  rw [Tree.ofText, lexed] at parsed
  obtain ⟨chain, group, rfl⟩ := (ofTokens_eq_ok_iff.1 parsed).exists_chainOf
  have inlined := between _ _ (ChainOf.parens opens closes group)
  rw [result_evaluateTokens_of_isTreeOf inlined]
  exact keeps _ innerEvaluated

/-- The parentheses are needed, for without them the second number alone would be doubled. -/
theorem evaluateTokens_inline_product :
    let s := Session.mk ((∅ : Grid).insert ⟨1, 1⟩ "1 + 2") 1
    let reference : Token := ⟨.reference, "\x7bA,1\x7d", ⟨0, 5⟩, none⟩
    let right : List Token :=
      [⟨.binary .multiply, "*", ⟨6, 7⟩, none⟩, ⟨.integer, "2", ⟨8, 9⟩, none⟩]
    let opening : Token := ⟨.leftParen, "(", ⟨0, 1⟩, none⟩
    let body : List Token := [⟨.integer, "1", ⟨0, 1⟩, none⟩, ⟨.binary .add, "+", ⟨2, 3⟩, none⟩,
      ⟨.integer, "2", ⟨4, 5⟩, none⟩]
    let closing : Token := ⟨.rightParen, ")", ⟨4, 5⟩, none⟩
    lex "1 + 2" = .ok body ∧
      (s.evaluateTokens (reference :: right)).result = .ok (.integer 6) ∧
      (s.evaluateTokens (opening :: body ++ [closing] ++ right)).result = .ok (.integer 6) := by
  intro s reference right opening body closing
  have one : IsWordOf .integer "1".toList := by decide
  have two : IsWordOf .integer "2".toList := by decide
  have lexed : lex "1 + 2" = .ok body :=
    lex_eq (lexes_spaced (lexes_spaced one.lexes (lexes_binary .add)) two.lexes)
  have parsed : Tree.ofText "1 + 2" =
      .ok (.binary (.binary .add) (.leaf .integer "1") (.leaf .integer "2")) :=
    (Spells.binary .add (.atom rfl one.lexes) (.atom rfl two.lexes)).ofText_eq
  have cells : ∀ cell ∈ s.grid.cells, AggregateFree cell.formula := by
    intro cell mem tokens read token inside fn
    obtain rfl := List.mem_singleton.1 mem
    cases lexed.symm.trans read
    simp only [body, List.mem_cons, List.not_mem_nil, or_false] at inside
    rcases inside with rfl | rfl | rfl <;> nofun
  have noCorner : ¬ CornerDue [] := by simp [CornerDue]
  have named : readReference "\x7bA,1\x7d" = .ok ⟨1, 1⟩ := rfl
  have stored : s.grid.lookup ⟨1, 1⟩ = some ⟨⟨1, 1⟩, "1 + 2"⟩ := rfl
  have stands : IsTreeOf (reference :: right) (.binary (.binary .multiply)
      (.leaf .reference "\x7bA,1\x7d") (.leaf .integer "2")) :=
    @IsTreeOf.binary [reference] [⟨.integer, "2", ⟨8, 9⟩, none⟩] _ .multiply _ _
      ⟨rfl, rfl, nofun, nofun⟩ (.atom rfl) (.atom rfl)
  have sum : HasValue s.grid (.binary (.binary .add) (.leaf .integer "1") (.leaf .integer "2"))
      (.integer 3) 0 := .binary (.literal (.integer rfl)) (.literal (.integer rfl)) rfl
  have product : HasValue s.grid (.binary (.binary .multiply) (.leaf .reference "\x7bA,1\x7d")
      (.leaf .integer "2")) (.integer 6) 1 :=
    .binary (.reference named stored parsed sum) (.literal (.integer rfl)) rfl
  have found : (s.evaluateTokens (reference :: right)).result = .ok (.integer 6) := by
    rw [result_evaluateTokens_of_isTreeOf stands, product.result_eq rfl (s.waitsFor_root 1)]
    exact Context.outcome_of_le (Nat.le_refl 1)
  have opens : opening.kind = .leftParen := rfl
  have closes : closing.kind = .rightParen := rfl
  have inlined := evaluateTokens_inline cells rfl noCorner named stored lexed opens closes found
  exact ⟨lexed, found, inlined⟩

end Session

end CellFormula
