import CellFormula.Expr.Text
import CellFormula.Proofs.Token.Lexeme
import CellFormula.Proofs.Tree.Parser

/-!
# Texts that spell trees

`Spells phrase text tree` says that a text lexes to tokens that are a phrase of the grammar with
this tree. It is kept up by all that is done to texts when formulas are written: to put them in
parentheses, to set an operator before or between them, to name a range function.

Main statements: `Spells.ofText_eq`, a text that spells a group reads back as its tree;
`Spells.parenthesized`, `Spells.unary`, `Spells.binary` and `Spells.range`, how texts are put
together.
-/

namespace CellFormula

/-- The text lexes to a phrase of the grammar with this tree, wherever it stands. -/
def Spells (phrase : Phrase) (text : String) (tree : Tree) : Prop :=
  ∃ tokens, Lexes text.toList tokens ∧
    ∀ start, ∃ chain, ChainOf phrase (tokens start) chain ∧ chain.assemble = tree

theorem blank_space : ∀ c ∈ " ".toList, isBlank c = true := List.all_eq_true.1 rfl

theorem space_ne_nil : " ".toList ≠ [] := by decide

/-- A text that spells a group reads back as its tree. -/
theorem Spells.ofText_eq {text : String} {tree : Tree} (spells : Spells .group text tree) :
    Tree.ofText text = .ok tree := by
  obtain ⟨tokens, lexes, reads⟩ := spells
  obtain ⟨chain, group, assembled⟩ := reads 0
  rw [Tree.ofText, lex_eq lexes]
  exact ofTokens_eq_ok_iff.2 (isTreeOf_iff.2 ⟨chain, group, assembled⟩)

/-- Two texts with a space between them have the tokens of the one before those of the other. -/
theorem lexes_spaced {left right : String} {leftTokens rightTokens : Nat → List Token}
    (leftLexes : Lexes left.toList leftTokens) (rightLexes : Lexes right.toList rightTokens) :
    Lexes (left ++ " " ++ right).toList fun start =>
      leftTokens start ++ rightTokens (start + byteLength left.toList + byteLength " ".toList) := by
  rw [String.toList_append, String.toList_append]
  exact leftLexes.spaced rightLexes space_ne_nil blank_space

theorem refuses_spaced_left {c : Char} {left : String} (right : String)
    (refuses : Refuses c left.toList) : Refuses c (left ++ " " ++ right).toList := by
  rw [String.toList_append, String.toList_append]
  exact refuses.spaced space_ne_nil blank_space

theorem refuses_spaced_right {c : Char} {left right : String} {tokens : Nat → List Token}
    (lexes : Lexes left.toList tokens) (refuses : Refuses c right.toList) :
    Refuses c (left ++ " " ++ right).toList := by
  rw [String.toList_append, String.toList_append]
  exact lexes.refuses refuses space_ne_nil blank_space

theorem parenthesized_eq (text : String) :
    parenthesized text = "(" ++ " " ++ text ++ " " ++ ")" := by
  rw [parenthesized, show "( " = "(" ++ " " from rfl, show " )" = " " ++ ")" from rfl,
    ← String.append_assoc]

theorem lexes_reference {a : Address} (referable : a.Referable) :
    Lexes a.text.toList fun start => [wordToken .reference a.text.toList start] := by
  rw [Address.toList_text referable]
  have braced : a.written.isBraced = true := by simp [Reference.isBraced, Address.written]
  exact (isWordOf_reference (Address.wellFormed_written referable) braced rfl).lexes

/-! ## Phrases -/

theorem ChainOf.eq_single {tokens : List Token} {chain : Chain}
    (read : ChainOf .operand tokens chain) : chain = ⟨chain.assemble, []⟩ := by
  obtain ⟨first, rest⟩ := chain
  have alone : rest = [] := read.rest_eq_nil rfl
  subst alone
  rw [Chain.assemble_single]

namespace Spells

variable {text left right : String} {tree leftTree rightTree : Tree}

theorem group (spells : Spells .operand text tree) : Spells .group text tree := by
  obtain ⟨tokens, lexes, reads⟩ := spells
  refine ⟨tokens, lexes, fun start => ?_⟩
  obtain ⟨chain, operand, assembled⟩ := reads start
  exact ⟨chain, .operand operand, assembled⟩

theorem atom {kind : TokenKind} (isAtom : kind.isAtom = true)
    (lexes : Lexes text.toList fun start => [wordToken kind text.toList start]) :
    Spells .operand text (.leaf kind text) := by
  refine ⟨_, lexes, fun start => ⟨_, .atom isAtom, ?_⟩⟩
  rw [Chain.assemble_single, wordToken, String.ofList_toList]

theorem string {body : String} (unquoted : '"' ∉ body.toList) :
    Spells .operand ("\"" ++ body ++ "\"") (.leaf .string body) := by
  refine ⟨fun start => [stringToken body.toList start], ?_, fun start => ⟨_, .atom rfl, ?_⟩⟩
  · rw [String.toList_append, String.toList_append]
    exact lexes_string unquoted
  · rw [Chain.assemble_single, stringToken, String.ofList_toList]

theorem rangeOf (fn : Aggregate) {start stop : String}
    (startLexes : Lexes start.toList fun place => [wordToken .reference start.toList place])
    (stopLexes : Lexes stop.toList fun place => [wordToken .reference stop.toList place]) :
    Spells .group (fn.name ++ " " ++ start ++ " " ++ stop)
      (.binary (.aggregate fn) (.leaf .reference start) (.leaf .reference stop)) := by
  refine ⟨_, lexes_spaced (lexes_spaced (lexes_aggregate fn) startLexes) stopLexes,
    fun place => ⟨_, .operand (.range rfl rfl rfl), ?_⟩⟩
  rw [Chain.assemble_single]
  simp only [wordToken, String.ofList_toList]

theorem range {fn : Aggregate} {range : Range} (start : range.start.Referable)
    (stop : range.stop.Referable) :
    Spells .group (fn.name ++ " " ++ range.start.text ++ " " ++ range.stop.text)
      (.binary (.aggregate fn) (.leaf .reference range.start.text)
        (.leaf .reference range.stop.text)) :=
  rangeOf fn (lexes_reference start) (lexes_reference stop)

theorem parenthesized (spells : Spells .group text tree) :
    Spells .operand (CellFormula.parenthesized text) tree := by
  obtain ⟨tokens, lexes, reads⟩ := spells
  rw [parenthesized_eq]
  refine ⟨_, lexes_spaced (lexes_spaced lexes_leftParen lexes) lexes_rightParen, fun start => ?_⟩
  obtain ⟨chain, group, assembled⟩ := reads (start + byteLength "(".toList + byteLength " ".toList)
  exact ⟨_, .parens rfl rfl group, (Chain.assemble_single _).trans assembled⟩

theorem unary (op : UnaryOp) (spells : Spells .operand text tree) :
    Spells .group (op.symbol ++ " " ++ text) (.unary (.unary op) tree) := by
  obtain ⟨tokens, lexes, reads⟩ := spells
  refine ⟨_, lexes_spaced (lexes_unary op) lexes, fun start => ?_⟩
  obtain ⟨chain, operand, assembled⟩ :=
    reads (start + byteLength op.symbol.toList + byteLength " ".toList)
  refine ⟨_, .unary rfl (.operand operand), ?_⟩
  rw [Chain.assemble_single, assembled]
  rfl

theorem binary (op : BinaryOp) (leftSpells : Spells .operand left leftTree)
    (rightSpells : Spells .operand right rightTree) :
    Spells .group (left ++ " " ++ op.symbol ++ " " ++ right)
      (.binary (.binary op) leftTree rightTree) := by
  obtain ⟨leftTokens, leftLexes, leftReads⟩ := leftSpells
  obtain ⟨rightTokens, rightLexes, rightReads⟩ := rightSpells
  refine ⟨_, lexes_spaced (lexes_spaced leftLexes (lexes_binary op)) rightLexes, fun start => ?_⟩
  obtain ⟨head, operand, headTree⟩ := leftReads start
  obtain ⟨chain, group, chainTree⟩ := rightReads
    (start + byteLength (left ++ " " ++ op.symbol).toList + byteLength " ".toList)
  obtain rfl : head = ⟨leftTree, []⟩ := headTree ▸ operand.eq_single
  obtain rfl : chain = ⟨rightTree, []⟩ := chainTree ▸ group.eq_single
  refine ⟨⟨leftTree, [(op, rightTree)]⟩, ?_, ?_⟩
  · rw [List.append_assoc, List.singleton_append]
    exact .link operand rfl (.operand group)
  · have assembled : (Chain.append ⟨leftTree, []⟩ op ⟨rightTree, []⟩).assemble = _ :=
      Chain.assemble_append (List.forall_mem_nil _) (List.forall_mem_nil _)
    rwa [Chain.assemble_single, Chain.assemble_single] at assembled

end Spells

end CellFormula
