import CellFormula.Proofs.Decimal.Notation
import CellFormula.Proofs.Token.Assignment
import CellFormula.Proofs.Tree.Parser

/-!
# Sources of literals

The lexer tells literals by their form, and reads no values. What a tree keeps of a literal is its
source, which is read when the tree is evaluated. Because of its form a source can then be refused
for one reason only, namely that it is an integer that is too large.

Main statements: `Tree.wellSpelt_of_ofText`, the literals in the tree of a formula are spelt as
their kinds are; `Value.readInteger_of_isNumeral`, `Value.exists_readFloat_of_isFraction` and
`Value.exists_readBoolean_of_word`, what is read from such spellings.
-/

namespace CellFormula

/-- The source is spelt like a literal of this kind. Kinds that are no literals, and strings, admit
all sources. -/
def TokenKind.Admits (kind : TokenKind) (source : String) : Prop :=
  match kind with
  | .integer => isNumeral source.toList = true
  | .float => isFraction source.toList = true
  | .boolean => source = "True" ∨ source = "False"
  | _ => True

/-! ## Tokens -/

section Tokens

variable {p : Token → Prop} {start : Nat} {word text : List Char} {tokens : List Token}

/-- What holds for words that are tokens as they stand, and for unary operators, holds for all
tokens of a word. -/
theorem forall_mem_wordTokens
    (ofWord : ∀ start word token, wordToken? start word = some token → p token)
    (ofUnary : ∀ start op, p (unaryToken start op)) (found : wordTokens start word = .ok tokens) :
    ∀ token ∈ tokens, p token := by
  fun_induction wordTokens start word generalizing tokens with
  | case1 start word token isToken =>
    cases found
    exact List.forall_mem_singleton.2 (ofWord start word token isToken)
  | case2 start word _ op _ =>
    cases found
    exact List.forall_mem_singleton.2 (ofUnary start op)
  | case3 start word _ op c rest _ ih =>
    obtain ⟨others, inner, done⟩ := exists_of_bind_eq_ok found
    cases done
    exact List.forall_mem_cons.2 ⟨ofUnary start op, ih inner⟩
  | case4 => cases found

theorem forall_mem_lexFrom
    (ofWord : ∀ start word token, wordToken? start word = some token → p token)
    (ofUnary : ∀ start op, p (unaryToken start op)) (found : lexFrom start text = .ok tokens) :
    ∀ token ∈ tokens, p token := by
  fun_induction lexFrom start text generalizing tokens with
  | case1 => cases found; exact List.forall_mem_nil _
  | case2 start c text _ word rest _ ih =>
    obtain ⟨first, inner, found⟩ := exists_of_bind_eq_ok found
    obtain ⟨others, behind, done⟩ := exists_of_bind_eq_ok found
    cases done
    exact List.forall_mem_append.2 ⟨forall_mem_wordTokens ofWord ofUnary inner, ih behind⟩
  | case3 => cases found
  | case4 start c text _ ih => exact ih found

theorem admits_of_wordKind? {kind : TokenKind} (known : wordKind? word = some kind) :
    kind.Admits (String.ofList word) := by
  have fixed : ∀ kind ∈ TokenKind.fixed, kind.isAtom = false := by decide
  unfold wordKind? at known
  split at known
  · cases known
    trivial
  · split at known
    · next numeral =>
      cases known
      rwa [TokenKind.Admits, String.toList_ofList]
    · split at known
      · next fraction =>
        cases known
        rwa [TokenKind.Admits, String.toList_ofList]
      · split at known
        · next boolean =>
          cases known
          exact boolean.imp (fun same => by rw [same]; rfl) fun same => by rw [same]; rfl
        · have noAtom := fixed kind (List.mem_of_find?_eq_some known)
          cases kind with
          | integer | float | boolean => cases noAtom
          | _ => trivial

theorem admits_of_wordToken? {token : Token} (found : wordToken? start word = some token) :
    token.kind.Admits token.source := by
  unfold wordToken? at found
  split at found
  · cases found
    trivial
  · obtain ⟨kind, known, rfl⟩ := Option.map_eq_some_iff.1 found
    exact admits_of_wordKind? known

/-- All tokens of a formula are spelt as their kinds are. -/
theorem admits_of_lex {formula : String} (found : lex formula = .ok tokens) :
    ∀ token ∈ tokens, token.kind.Admits token.source := by
  unfold lex at found
  simp only at found
  split at found
  · split at found
    · next token named =>
      cases found
      obtain ⟨address, _, done⟩ := exists_of_bind_eq_ok named
      cases done
      exact List.forall_mem_singleton.2 trivial
    · cases found
  · exact forall_mem_lexFrom (fun _ _ _ => admits_of_wordToken?) (fun _ _ => trivial) found

end Tokens

/-! ## Trees -/

namespace Tree

/-- All literals in the tree are spelt as their kinds are. -/
def WellSpelt (tree : Tree) : Prop :=
  ∀ kind source, (kind, some source) ∈ tree.words → kind.Admits source

theorem wellSpelt_of_ofText {formula : String} {tree : Tree} (parsed : ofText formula = .ok tree) :
    tree.WellSpelt := by
  obtain ⟨tokens, lexed, parsed⟩ := exists_of_bind_eq_ok parsed
  intro kind source mem
  rw [(ofTokens_eq_ok_iff.1 parsed).words_eq] at mem
  obtain ⟨token, kept, word⟩ := List.mem_map.1 mem
  have admits := admits_of_lex lexed token (List.mem_filter.1 kept).1
  unfold Token.word at word
  split at word <;> cases word
  exact admits

end Tree

/-! ## Reading -/

/-- A fraction has digits before and behind its point. -/
theorem exists_positional_of_isFraction {text : List Char} (fraction : isFraction text = true) :
    ∃ before after, text = before ++ '.' :: after ∧
      Positional before after ⟨Numeral.value (before ++ after), 0 - (after.length : Int)⟩ := by
  unfold isFraction at fraction
  split at fraction
  · next after behind =>
    obtain ⟨some, numeral⟩ := of_decide_eq_true fraction
    obtain ⟨nonempty, all⟩ := of_decide_eq_true numeral
    refine ⟨text.takeWhile Char.isDigit, after, ?_, some, fun c => of_mem_takeWhile, nonempty,
      List.all_eq_true.1 all, rfl, rfl⟩
    rw [← behind, List.takeWhile_append_dropWhile]
  · cases fraction

namespace Value

variable {source : String}

/-- A numeral is read as its number, unless that is too large. -/
theorem readInteger_of_isNumeral (numeral : isNumeral source.toList = true) :
    (∃ n : Integer, readInteger source = .ok (.integer n) ∧
        n.toInt = (Numeral.value source.toList : Int)) ∨
      readInteger source = .error (.type (.integerLiteral source .tooLarge)) ∧
        ¬ Integer.Fits (Numeral.value source.toList) := by
  obtain ⟨nonempty, all⟩ := of_decide_eq_true numeral
  have digits : ∀ c ∈ source.toList, c.isDigit = true := List.all_eq_true.1 all
  rw [readInteger, trim_of_dark fun c mem => isBlank_of_isDigit (digits c mem),
    Integer.read_of_isDigit nonempty digits]
  rcases Integer.readDigits_of_isDigit digits with ⟨n, found, number⟩ | ⟨failed, large⟩
  · exact Or.inl ⟨n, by rw [found], number⟩
  · exact Or.inr ⟨by rw [failed], large⟩

/-- Digits, a point and digits are always read as a float. -/
theorem exists_readFloat_of_isFraction (fraction : isFraction source.toList = true) :
    ∃ x, Value.readFloat source = .ok (.float x) := by
  obtain ⟨before, after, split, positional⟩ := exists_positional_of_isFraction fraction
  have dark : ∀ c ∈ before ++ '.' :: after, isBlank c = false :=
    List.forall_mem_append.2 ⟨fun c mem => isBlank_of_isDigit (positional.whole_digits c mem),
      List.forall_mem_cons.2 ⟨rfl, fun c mem =>
        isBlank_of_isDigit (positional.fraction_digits c mem)⟩⟩
  refine ⟨Decimal.toFloat ⟨Numeral.value (before ++ after), 0 - (after.length : Int)⟩, ?_⟩
  rw [Value.readFloat, split, trim_of_dark dark,
    readFloat_of_readDecimal? positional.readDecimal?_eq]

theorem exists_readBoolean_of_word (word : source = "True" ∨ source = "False") :
    ∃ b, readBoolean source = .ok (.boolean b) := by
  rcases word with rfl | rfl
  · exact ⟨true, rfl⟩
  · exact ⟨false, rfl⟩

end Value

end CellFormula
