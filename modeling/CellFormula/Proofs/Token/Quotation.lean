import CellFormula.Proofs.Token.Tiling
import CellFormula.Proofs.Tree.Levels
import Mathlib.Data.List.Chain

/-!
# Strings with a quote in them

A string ends at its second quote, where it is a word of its own. Where it stands behind a unary
operator in one word it ends at the end of that word, and may have quotes in it. So a string with a
quote in it always stands directly behind a unary operator.

Main statements: `lex_marked`, a string behind a unary operator may have any quotes in it;
`guarded_lex`, no such string stands anywhere else.
-/

namespace CellFormula

/-! ## Strings behind unary operators -/

theorem wordTokens_marked (op : UnaryOp) (body : List Char) (start : Nat) :
    wordTokens start (op.symbol.toList ++ ('"' :: body ++ ['"'])) =
      .ok [unaryToken start op, stringToken body (start + byteLength op.symbol.toList)] := by
  rw [wordTokens_symbol op (by simp) (by simp), wordTokens_string]
  rfl

/-- A string directly behind a unary operator reaches to the end of the word, whatever quotes are in
it. -/
theorem lex_marked (op : UnaryOp) {body : List Char} (solid : ∀ c ∈ body, isBlank c = false) :
    lex (String.ofList (op.symbol.toList ++ ('"' :: body ++ ['"']))) =
      .ok [unaryToken 0 op, stringToken body (byteLength op.symbol.toList)] := by
  have dark : ∀ c ∈ op.symbol.toList ++ ('"' :: body ++ ['"']), isBlank c = false := by
    have quote : isBlank '"' = false := rfl
    refine List.forall_mem_append.2 ⟨isBlank_symbol op, ?_⟩
    exact List.forall_mem_append.2 ⟨List.forall_mem_cons.2 ⟨quote, solid⟩,
      List.forall_mem_singleton.2 quote⟩
  have lexes :
      Lexes (String.ofList (op.symbol.toList ++ ('"' :: body ++ ['"']))).toList fun start =>
      [unaryToken start op, stringToken body (start + byteLength op.symbol.toList)] := by
    rw [String.toList_ofList]
    exact lexes_plain (by simp) (by cases op <;> simp [UnaryOp.symbol]) dark
      (wordTokens_marked op body)
  have all := lex_eq lexes
  rwa [Nat.zero_add] at all

/-! ## Guarded tokens -/

namespace Token

/-- The token is a string with a quote in it. -/
def HoldsQuote (t : Token) : Prop := t.kind = .string ∧ '"' ∈ t.source.toList

/-- The second token may stand directly behind the first: if it is a string with a quote in it, the
first is a unary operator. -/
def Admits (before t : Token) : Prop := t.HoldsQuote → ∃ op, before.kind = .unary op

end Token

/-- A string with a quote in it stands only directly behind a unary operator. -/
structure Guarded (tokens : List Token) : Prop where
  first : ∀ t ∈ tokens.head?, ¬ t.HoldsQuote
  others : tokens.IsChain Token.Admits

namespace Guarded

variable {token sign : Token} {tokens left right : List Token}

theorem nil : Guarded [] := ⟨nofun, .nil⟩

theorem single (noQuote : ¬ token.HoldsQuote) : Guarded [token] := by
  refine ⟨?_, .singleton token⟩
  rintro t ⟨⟩
  exact noQuote

theorem append (leftGuarded : Guarded left) (rightGuarded : Guarded right) :
    Guarded (left ++ right) := by
  refine ⟨fun t first => ?_, ?_⟩
  · cases left with
    | nil => exact rightGuarded.first t first
    | cons => exact leftGuarded.first t first
  · refine List.isChain_append.2 ⟨leftGuarded.others, rightGuarded.others, ?_⟩
    intro before _ t first holds
    exact absurd holds (rightGuarded.first t first)

theorem left_of_append (guarded : Guarded (left ++ right)) : Guarded left := by
  refine ⟨fun t first => guarded.first t ?_, (List.isChain_append.1 guarded.others).1⟩
  cases left with
  | nil => cases first
  | cons => exact first

/-- The tokens behind one that is no unary operator are guarded by themselves. -/
theorem of_isChain (chain : (sign :: tokens).IsChain Token.Admits)
    (noUnary : ∀ op, sign.kind ≠ .unary op) : Guarded tokens := by
  obtain ⟨next, others⟩ := List.isChain_cons.1 chain
  refine ⟨fun t first holds => ?_, others⟩
  obtain ⟨op, unary⟩ := next t first holds
  exact noUnary op unary

end Guarded

/-! ## What the lexer makes of words and texts -/

section

variable {start : Nat} {word text : List Char} {tokens : List Token}

/-- A token is a string only if its word begins with a quote. -/
theorem head?_of_holdsQuote {token : Token} (found : wordToken? start word = some token)
    (holds : token.HoldsQuote) : word.head? = some '"' := by
  unfold wordToken? at found
  split at found
  · next body quoted =>
    rw [quoted?_eq_some quoted]
    rfl
  · obtain ⟨kind, known, rfl⟩ := Option.map_eq_some_iff.1 found
    exact absurd holds.1 (wordKind?_plain known).1

/-- In a word, a string with a quote in it stands behind a unary operator, or else first, if the
word begins with a quote. -/
theorem isChain_wordTokens (found : wordTokens start word = .ok tokens) :
    tokens.IsChain Token.Admits ∧ ∀ t ∈ tokens.head?, t.HoldsQuote → word.head? = some '"' := by
  fun_induction wordTokens start word generalizing tokens with
  | case1 start word token isToken =>
    cases found
    refine ⟨.singleton token, ?_⟩
    rintro t ⟨⟩ holds
    exact head?_of_holdsQuote isToken holds
  | case2 start word _ op peeled =>
    cases found
    refine ⟨.singleton _, ?_⟩
    rintro t ⟨⟩ ⟨isString, _⟩
    cases isString
  | case3 start word _ op c rest peeled ih =>
    obtain ⟨others, inner, done⟩ := exists_of_bind_eq_ok found
    cases done
    refine ⟨List.isChain_cons.2 ⟨fun t _ _ => ⟨op, rfl⟩, (ih inner).1⟩, ?_⟩
    rintro t ⟨⟩ ⟨isString, _⟩
    cases isString
  | case4 => cases found

/-- The tokens of a word that was cut out of a text are guarded. -/
theorem guarded_wordTokens (cut : IsCut word) (found : wordTokens start word = .ok tokens) :
    Guarded tokens := by
  cases cut with
  | @string body unquoted =>
    rw [wordTokens_string] at found
    cases found
    refine .single fun holds => unquoted ?_
    simpa [stringToken] using holds.2
  | plain noString _ =>
    obtain ⟨chain, first⟩ := isChain_wordTokens found
    exact ⟨fun t mem holds => noString (first t mem holds), chain⟩

theorem guarded_lexFrom (found : lexFrom start text = .ok tokens) : Guarded tokens := by
  fun_induction lexFrom start text generalizing tokens with
  | case1 => cases found; exact .nil
  | case2 start c text dark word rest first ih =>
    obtain ⟨ofWord, inner, found⟩ := exists_of_bind_eq_ok found
    obtain ⟨others, behind, done⟩ := exists_of_bind_eq_ok found
    cases done
    exact (guarded_wordTokens (of_firstWord?_eq_some first).2 inner).append (ih behind)
  | case3 => cases found
  | case4 start c text light ih => exact ih found

/-- In a formula that lexes, a string with a quote in it stands only directly behind a unary
operator. -/
theorem guarded_lex {formula : String} (found : lex formula = .ok tokens) : Guarded tokens := by
  unfold lex at found
  simp only at found
  split at found
  · next target body _ =>
    split at found
    · next token named =>
      cases found
      obtain ⟨address, _, done⟩ := exists_of_bind_eq_ok named
      cases done
      exact .single fun ⟨isString, _⟩ => nomatch isString
    · cases found
  · exact guarded_lexFrom found

end

end CellFormula
