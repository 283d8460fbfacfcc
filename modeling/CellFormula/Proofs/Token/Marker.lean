import CellFormula.Proofs.Token.Lexeme
import CellFormula.Proofs.Token.Quotation

/-!
# Unary operators close to a text

A unary operator may be written close to the text that it stands before. Then the two make up one
word, which is cut off at the next blank, before the operator is split off. So what comes out is the
operator and the text as it is lexed by itself, unless the text begins with a string: blanks in the
string cut it apart, and what stands close behind it is taken in.

Main statements: `lexFrom_shift`, it makes no difference where a text stands; `lexFrom_symbol`, an
operator close to a text whose first word ends at a blank; `lexFrom_symbol_string`, an operator
close to a string that does not; `lex_symbol_spec`, exactly when the operator may be written close.
-/

namespace CellFormula

/-! ## Tokens moved to the right -/

/-- The span, so many bytes farther on. -/
def Span.shift (n : Nat) (s : Span) : Span := ⟨s.start + n, s.stop + n⟩

/-- The token, so many bytes farther on. -/
def Token.shift (n : Nat) (t : Token) : Token := { t with span := t.span.shift n }

section

variable {start : Nat} {word text : List Char} {tokens : List Token} (n : Nat)

theorem shift_ofText (start : Nat) (text : List Char) :
    (Span.ofText start text).shift n = Span.ofText (start + n) text := by
  rw [Span.shift, Span.ofText, Span.ofText, Nat.add_right_comm]

theorem wordToken?_shift (start : Nat) (word : List Char) :
    wordToken? (start + n) word = (wordToken? start word).map (Token.shift n) := by
  unfold wordToken?
  split
  · rw [Option.map_some, Token.shift, shift_ofText]
  · rw [Option.map_map]
    refine congrArg (fun f => (wordKind? word).map f) (funext fun kind => ?_)
    rw [Function.comp_apply, Token.shift, shift_ofText]

theorem unaryToken_shift (start : Nat) (op : UnaryOp) :
    unaryToken (start + n) op = (unaryToken start op).shift n := by
  rw [unaryToken, unaryToken, Token.shift, shift_ofText]

theorem wordTokens_shift (known : wordTokens start word = .ok tokens) :
    wordTokens (start + n) word = .ok (tokens.map (Token.shift n)) := by
  fun_induction wordTokens start word generalizing tokens with
  | case1 start word token isToken =>
    cases known
    have moved := wordToken?_shift n start word
    rw [isToken] at moved
    rw [wordTokens, moved]
    rfl
  | case2 start word unknown op peeled =>
    cases known
    have moved := wordToken?_shift n start word
    rw [unknown] at moved
    rw [wordTokens_of_peel?_nil moved peeled, unaryToken_shift]
    rfl
  | case3 start word unknown op c rest peeled ih =>
    obtain ⟨others, inner, done⟩ := exists_of_bind_eq_ok known
    cases done
    have moved := wordToken?_shift n start word
    rw [unknown] at moved
    rw [wordTokens_of_peel?_cons moved peeled, Nat.add_right_comm, ih inner, unaryToken_shift]
    rfl
  | case4 => cases known

/-- The tokens of a text are the same wherever it stands, apart from their places. -/
theorem lexFrom_shift (lexed : lexFrom start text = .ok tokens) :
    lexFrom (start + n) text = .ok (tokens.map (Token.shift n)) := by
  fun_induction lexFrom start text generalizing tokens with
  | case1 =>
    cases lexed
    rw [lexFrom]
    rfl
  | case2 start c text dark word rest first ih =>
    obtain ⟨ofWord, inner, found⟩ := exists_of_bind_eq_ok lexed
    obtain ⟨others, behind, done⟩ := exists_of_bind_eq_ok found
    cases done
    rw [lexFrom_word dark first, wordTokens_shift n inner, Nat.add_right_comm, ih behind,
      List.map_append]
    rfl
  | case3 => cases lexed
  | case4 start c text light ih =>
    rw [lexFrom, dif_neg light, Nat.add_right_comm]
    exact ih lexed

end

/-! ## Operators close to a text -/

section

variable {start : Nat} {word rest text body : List Char} {tokens : List Token} {op : UnaryOp}

/-- No word is an equals sign, which would make another operator of an exclamation mark. -/
theorem ne_equals_of_wordTokens (known : wordTokens start word = .ok tokens) : word ≠ ['='] := by
  rintro rfl
  have unknown : wordToken? start ['='] = none := by
    rw [wordToken?, show quoted? ['='] = none from rfl, show wordKind? ['='] = none by decide]
    rfl
  rw [wordTokens_of_peel?_none unknown rfl] at known
  cases known

/-- Neither a string nor a reference begins like an operator. -/
theorem exists_symbol_eq_cons (op : UnaryOp) : ∃ c rest, op.symbol.toList = c :: rest ∧
    isBlank c = false ∧ c ≠ '"' ∧ c ≠ '\x7b' := by
  cases op <;> exact ⟨_, _, rfl, rfl, by decide, by decide⟩

/-- An operator makes one word with the characters behind it, up to the next blank. -/
theorem lexFrom_symbol_append (solid : ∀ c ∈ word, isBlank c = false) (ends : EndsWord rest)
    (op : UnaryOp) (start : Nat) :
    lexFrom start (op.symbol.toList ++ (word ++ rest)) = (do
      let tokens ← wordTokens start (op.symbol.toList ++ word)
      let others ← lexFrom (start + byteLength op.symbol.toList + byteLength word) rest
      return tokens ++ others) := by
  have dark : ∀ c ∈ op.symbol.toList ++ word, isBlank c = false :=
    List.forall_mem_append.2 ⟨isBlank_symbol op, solid⟩
  obtain ⟨c, tail, shape, _, noQuote, _⟩ := exists_symbol_eq_cons op
  have nonempty : op.symbol.toList ++ word ≠ [] := by simp [shape]
  have noString : (op.symbol.toList ++ word).head? ≠ some '"' := by simpa [shape] using noQuote
  have first := firstWord?_plain nonempty noString dark ends
  rw [← List.append_assoc,
    lexFrom_append nonempty (fun c head => dark c (List.mem_of_mem_head? head)) first,
    byteLength_append, Nat.add_assoc]

theorem lexFrom_symbol_spaced (ends : EndsWord text)
    (lexed : lexFrom (start + byteLength op.symbol.toList) text = .ok tokens) :
    lexFrom start (op.symbol.toList ++ text) = .ok (unaryToken start op :: tokens) := by
  have noWord : ∀ c ∈ ([] : List Char), isBlank c = false := nofun
  rw [← List.nil_append text, lexFrom_symbol_append noWord ends, List.append_nil, wordTokens_unary,
    byteLength_nil, Nat.add_zero, lexed]
  rfl

/-- An operator close to a word that ends at a blank. -/
theorem lexFrom_symbol_word (nonempty : word ≠ []) (solid : ∀ c ∈ word, isBlank c = false)
    (ends : EndsWord rest) (first : firstWord? (word ++ rest) = some (word, rest))
    (lexed : lexFrom (start + byteLength op.symbol.toList) (word ++ rest) = .ok tokens) :
    lexFrom start (op.symbol.toList ++ (word ++ rest)) = .ok (unaryToken start op :: tokens) := by
  have dark : ∀ c ∈ word.head?, isBlank c = false :=
    fun c head => solid c (List.mem_of_mem_head? head)
  rw [lexFrom_append nonempty dark first] at lexed
  obtain ⟨ofWord, known, found⟩ := exists_of_bind_eq_ok lexed
  obtain ⟨others, behind, done⟩ := exists_of_bind_eq_ok found
  cases done
  rw [lexFrom_symbol_append solid ends,
    wordTokens_symbol op nonempty (ne_equals_of_wordTokens known), known, behind]
  rfl

/-- If the text begins with a string, the string is a word for blanks as well: there are none in it,
and behind it is a blank or the end. -/
def FrontSolid (text : List Char) : Prop :=
  ∀ body rest, text = '"' :: body ++ '"' :: rest → '"' ∉ body →
    (∀ c ∈ body, isBlank c = false) ∧ EndsWord rest

theorem frontSolid_of_head (noString : text.head? ≠ some '"') : FrontSolid text := by
  rintro body rest rfl
  exact absurd rfl noString

theorem endsWord_dropWhile (text : List Char) : EndsWord (text.dropWhile (!isBlank ·)) := by
  intro c head
  obtain ⟨tail, dropped⟩ := List.head?_eq_some_iff.1 head
  simpa using of_head_dropWhile dropped

theorem endsWord_of_firstWord? (first : firstWord? text = some (word, rest))
    (noString : word.head? ≠ some '"') : EndsWord rest := by
  unfold firstWord? at first
  split at first
  · split at first
    · cases first
      exact absurd rfl noString
    · cases first
  · cases first
    exact endsWord_dropWhile text

/-- An operator may be written close to a text that does not begin with a string, or with one that
is a word for blanks as well. -/
theorem lexFrom_symbol (solid : FrontSolid text)
    (lexed : lexFrom (start + byteLength op.symbol.toList) text = .ok tokens) :
    lexFrom start (op.symbol.toList ++ text) = .ok (unaryToken start op :: tokens) := by
  by_cases ends : EndsWord text
  · exact lexFrom_symbol_spaced ends lexed
  · obtain ⟨c, head, dark⟩ : ∃ c ∈ text.head?, isBlank c = false := by simpa [EndsWord] using ends
    obtain ⟨tail, rfl⟩ := List.head?_eq_some_iff.1 head
    cases first : firstWord? (c :: tail) with
    | none =>
      rw [lexFrom, dif_pos dark] at lexed
      split at lexed
      · next found => rw [first] at found; cases found
      · cases lexed
    | some cut =>
      obtain ⟨word, rest⟩ := cut
      obtain ⟨whole, isCut⟩ := of_firstWord?_eq_some first
      rw [whole] at first lexed solid ⊢
      cases isCut with
      | @string body unquoted =>
        obtain ⟨inner, ends⟩ := solid body rest (by simp) unquoted
        refine lexFrom_symbol_word (by simp) ?_ ends first lexed
        have quote : isBlank '"' = false := rfl
        exact List.forall_mem_append.2 ⟨List.forall_mem_cons.2 ⟨quote, inner⟩,
          List.forall_mem_singleton.2 quote⟩
      | plain noString inner =>
        have nonempty : word ≠ [] := by
          rintro rfl
          have := length_lt_of_firstWord? dark (whole ▸ first)
          rw [whole] at this
          exact absurd this (Nat.lt_irrefl _)
        exact lexFrom_symbol_word nonempty inner (endsWord_of_firstWord? first noString) first lexed

/-! ## Operators close to a string -/

theorem wordToken?_quote (unclosed : quoted? ('"' :: text) = none) (start : Nat) :
    wordToken? start ('"' :: text) = none := by
  have spelt :
      ∀ kind ∈ TokenKind.fixed, ∀ s ∈ kind.spelling?, s.toList.head? ≠ some '"' := by decide
  have noFixed : (TokenKind.fixed.find? fun kind =>
      kind.spelling? = some (String.ofList ('"' :: text))) = none := by
    simp only [List.find?_eq_none, decide_eq_true_eq]
    intro kind fixed same
    have other := spelt kind fixed _ same
    rw [String.toList_ofList] at other
    exact other rfl
  have unknown : wordKind? ('"' :: text) = none := by
    rw [wordKind?, noFixed]
    simp [isReference_of_head, isNumeral, isFraction]
  rw [wordToken?, unclosed, unknown]
  rfl

/-- A word behind an operator that begins with a quote is a string if it ends with one, and else it
is refused. -/
theorem wordTokens_quote (text : List Char) (start : Nat) :
    (∃ body, text = body ++ ['"'] ∧ wordTokens start ('"' :: text) = .ok [stringToken body start]) ∨
      wordTokens start ('"' :: text) =
        .error (.lex (String.ofList ('"' :: text)) (Span.ofText start ('"' :: text))) := by
  cases quoted : quoted? ('"' :: text) with
  | some body =>
    have shape := quoted?_eq_some quoted
    refine Or.inl ⟨body, (List.cons.inj shape).2, ?_⟩
    rw [shape]
    exact wordTokens_string body start
  | none => exact Or.inr (wordTokens_of_peel?_none (wordToken?_quote quoted start) rfl)

/-- A word that is cut off at a blank and ends with a quote does not end where a string does that
goes on beyond a blank or has something close behind it. So it has another quote in it. -/
theorem quote_mem_of_crossed {inner behind : List Char} (unquoted : '"' ∉ body)
    (crossed : ¬ ((∀ c ∈ body, isBlank c = false) ∧ EndsWord rest))
    (solid : ∀ c ∈ inner, isBlank c = false) (ends : EndsWord behind)
    (split : inner ++ '"' :: behind = body ++ '"' :: rest) : '"' ∈ inner := by
  by_contra absent
  have first : firstWord? ('"' :: inner ++ ['"'] ++ behind) = _ := firstWord?_string absent
  have other : firstWord? ('"' :: body ++ ['"'] ++ rest) = _ := firstWord?_string unquoted
  have texts : '"' :: inner ++ ['"'] ++ behind = '"' :: body ++ ['"'] ++ rest := by simp [split]
  rw [texts, other] at first
  simp only [Option.some.injEq, Prod.mk.injEq, List.cons_append, List.cons.injEq, true_and,
    List.append_cancel_right_eq] at first
  obtain ⟨rfl, rfl⟩ := first
  exact crossed ⟨solid, ends⟩

/-- An operator close to a string that goes on beyond a blank, or has something close behind it: the
word is refused, or it is a longer string with a quote in it. -/
theorem lexFrom_symbol_string (unquoted : '"' ∉ body)
    (crossed : ¬ ((∀ c ∈ body, isBlank c = false) ∧ EndsWord rest)) (op : UnaryOp) (start : Nat) :
    let answer := lexFrom start (op.symbol.toList ++ ('"' :: body ++ '"' :: rest))
    (∃ cause, answer = .error cause) ∨ ∃ inner others, '"' ∈ inner ∧
      answer = .ok (unaryToken start op ::
        stringToken inner (start + byteLength op.symbol.toList) :: others) := by
  intro answer
  let word := (body ++ '"' :: rest).takeWhile (!isBlank ·)
  let behind := (body ++ '"' :: rest).dropWhile (!isBlank ·)
  have whole : word ++ behind = body ++ '"' :: rest := List.takeWhile_append_dropWhile
  have solid : ∀ c ∈ word, isBlank c = false := fun c mem => by simpa using of_mem_takeWhile mem
  have ends : EndsWord behind := endsWord_dropWhile _
  have quoteSolid : ∀ c ∈ '"' :: word, isBlank c = false := List.forall_mem_cons.2 ⟨rfl, solid⟩
  have cut : answer = (do
      let tokens ← wordTokens start (op.symbol.toList ++ '"' :: word)
      let others ← lexFrom (start + byteLength op.symbol.toList + byteLength ('"' :: word)) behind
      return tokens ++ others) := by
    rw [← lexFrom_symbol_append quoteSolid ends, List.cons_append, whole]
    rfl
  rw [wordTokens_symbol op (by simp) (by simp)] at cut
  rcases wordTokens_quote word (start + byteLength op.symbol.toList) with
    ⟨inner, closed, string⟩ | refused
  · have innerSolid : ∀ c ∈ inner, isBlank c = false := fun c mem =>
      solid c (closed ▸ List.mem_append_left _ mem)
    have split : inner ++ '"' :: behind = body ++ '"' :: rest := by
      rw [← whole, closed, List.append_assoc]
      rfl
    have quote := quote_mem_of_crossed unquoted crossed innerSolid ends split
    rw [string] at cut
    cases found :
      lexFrom (start + byteLength op.symbol.toList + byteLength ('"' :: word)) behind with
    | error cause =>
      rw [found] at cut
      exact Or.inl ⟨cause, cut⟩
    | ok others =>
      rw [found] at cut
      exact Or.inr ⟨inner, others, quote, cut⟩
  · rw [refused] at cut
    exact Or.inl ⟨_, cut⟩

end

/-! ## Formulas -/

theorem assignment?_symbol (op : UnaryOp) (text : List Char) :
    assignment? (op.symbol.toList ++ text) = none := by
  cases found : assignment? (op.symbol.toList ++ text) with
  | none => rfl
  | some parts =>
    obtain ⟨formed, braced, left, right, leftBlank, _, spelt⟩ := assigns_of_assignment? found
    obtain ⟨letter, tail, _, braces⟩ := head_braced formed braced
    obtain ⟨c, rest, shape, dark, _, noBrace⟩ := exists_symbol_eq_cons op
    rw [shape, braces] at spelt
    cases left with
    | nil => exact absurd (List.cons.inj spelt).1 noBrace
    | cons d left =>
      have blank := leftBlank d List.mem_cons_self
      rw [← (List.cons.inj spelt).1, dark] at blank
      cases blank

theorem lex_symbol (op : UnaryOp) (text : String) :
    lex (op.symbol ++ text) = lexFrom 0 (op.symbol.toList ++ text.toList) := by
  rw [lex, String.toList_append, assignment?_symbol]

theorem lexFrom_of_lex {formula : String} {tokens : List Token} (lexed : lex formula = .ok tokens)
    (expression : ¬ ∃ target body, Assigns formula.toList target body) :
    lexFrom 0 formula.toList = .ok tokens := by
  rw [lex] at lexed
  cases form : assignment? formula.toList with
  | none => simpa only [form] using lexed
  | some parts => exact absurd ⟨parts.1, parts.2, assigns_of_assignment? form⟩ expression

section

variable {formula : String} {tokens : List Token}

/-- An operator with a blank behind it stands for itself. -/
theorem lex_symbol_spaced (op : UnaryOp) (lexed : lexFrom 0 formula.toList = .ok tokens) :
    lex (op.symbol ++ (" " ++ formula)) = .ok (unaryToken 0 op ::
      tokens.map (Token.shift (byteLength op.symbol.toList + 1))) := by
  have blank : ∀ c ∈ [' '], isBlank c = true := List.forall_mem_singleton.2 rfl
  have spaced : (" " ++ formula).toList = [' '] ++ formula.toList := String.toList_append
  rw [lex_symbol, spaced]
  refine lexFrom_symbol_spaced (endsWord_append nofun blank) ?_
  rw [lexFrom_blanks blank, Nat.add_assoc]
  exact lexFrom_shift _ lexed

theorem lex_symbol_of_not_frontSolid (op : UnaryOp) (crossed : ¬ FrontSolid formula.toList) :
    (∃ cause, lex (op.symbol ++ formula) = .error cause) ∨ ∃ inner others, '"' ∈ inner ∧
      lex (op.symbol ++ formula) =
        .ok (unaryToken 0 op :: stringToken inner (byteLength op.symbol.toList) :: others) := by
  simp only [FrontSolid, not_forall] at crossed
  obtain ⟨body, rest, begins, unquoted, crossed⟩ := crossed
  have answer := lexFrom_symbol_string unquoted crossed op 0
  rwa [← begins, ← lex_symbol, Nat.zero_add] at answer

/-- No formula has a string with a quote in it for its first token, wherever it stands. -/
theorem shift_ne_stringToken {inner : List Char} {others : List Token} {width : Nat}
    (lexed : lex formula = .ok tokens) (quote : '"' ∈ inner) :
    tokens.map (Token.shift width) ≠ stringToken inner width :: others := by
  intro same
  cases tokens with
  | nil => cases same
  | cons token tokens =>
    have string : token.shift width = stringToken inner width := (List.cons.inj same).1
    have kind : token.kind = .string := congrArg Token.kind string
    have source : token.source = String.ofList inner := congrArg Token.source string
    refine (guarded_lex lexed).first token rfl ⟨kind, ?_⟩
    rwa [source, String.toList_ofList]

/-- A formula that is no assignment, with a unary operator written close to it: exactly if the
formula does not begin with a string that goes on beyond a blank or has something close behind it,
its tokens are the operator and those of the formula, moved by the width of the operator. Otherwise
it is refused, or a string with a quote in it follows the operator. With a blank between them the
tokens are always those of the operator and the formula. -/
theorem lex_symbol_spec (op : UnaryOp)
    (expression : ¬ ∃ target body, Assigns formula.toList target body)
    (lexed : lex formula = .ok tokens) :
    let width := byteLength op.symbol.toList
    (lex (op.symbol ++ formula) = .ok (unaryToken 0 op :: tokens.map (Token.shift width)) ↔
      FrontSolid formula.toList) ∧
    (¬ FrontSolid formula.toList → (∃ cause, lex (op.symbol ++ formula) = .error cause) ∨
      ∃ inner others, '"' ∈ inner ∧
        lex (op.symbol ++ formula) = .ok (unaryToken 0 op :: stringToken inner width :: others)) ∧
    lex (op.symbol ++ (" " ++ formula)) =
      .ok (unaryToken 0 op :: tokens.map (Token.shift (width + 1))) := by
  intro width
  have found := lexFrom_of_lex lexed expression
  refine ⟨⟨fun close => ?_, fun solid => ?_⟩, lex_symbol_of_not_frontSolid op,
    lex_symbol_spaced op found⟩
  · by_contra crossed
    rcases lex_symbol_of_not_frontSolid op crossed with
      ⟨cause, refused⟩ | ⟨inner, others, quote, longer⟩
    · rw [refused] at close
      cases close
    · rw [longer, Except.ok.injEq, List.cons.injEq] at close
      exact shift_ne_stringToken lexed quote close.2.symm
  · rw [lex_symbol]
    exact lexFrom_symbol solid (lexFrom_shift width found)

/-- An exclamation mark close to a word, and close to a string with a blank in it. -/
theorem lex_symbol_spec_not :
    ((¬ ∃ target body, Assigns "True".toList target body) ∧
      lex "True" = .ok [wordToken .boolean "True".toList 0] ∧ FrontSolid "True".toList ∧
      lex "!True" = .ok [unaryToken 0 .not, wordToken .boolean "True".toList 1]) ∧
    (¬ ∃ target body, Assigns "\"a b\"".toList target body) ∧
      lex "\"a b\"" = .ok [stringToken "a b".toList 0] ∧ ¬ FrontSolid "\"a b\"".toList ∧
      lex "!\"a b\"" ≠ .ok [unaryToken 0 .not, stringToken "a b".toList 1] := by
  have isBoolean : IsWordOf .boolean "True".toList := by decide
  have wordLexed : lex "True" = .ok [wordToken .boolean "True".toList 0] := lex_eq isBoolean.lexes
  have unquoted : '"' ∉ "a b".toList := by decide
  have string : Lexes "\"a b\"".toList fun start => [stringToken "a b".toList start] :=
    lexes_string unquoted
  have stringLexed : lex "\"a b\"" = .ok [stringToken "a b".toList 0] := lex_eq string
  have noAssignment : ∀ text ∈ ["True".toList, "\"a b\"".toList],
      ¬ ∃ target body, Assigns text target body := by
    rintro text mem ⟨target, body, assigns⟩
    have none : ∀ text ∈ ["True".toList, "\"a b\"".toList], assignment? text = none := by decide
    have found := none text mem
    rw [assigns.assignment?] at found
    cases found
  have wordSolid : FrontSolid "True".toList := frontSolid_of_head (by decide)
  have stringCrossed : ¬ FrontSolid "\"a b\"".toList := by
    intro solid
    have dark := (solid "a b".toList [] rfl unquoted).1 ' ' (by decide)
    cases dark
  have wordExpression := noAssignment _ List.mem_cons_self
  have stringExpression := noAssignment _ (List.mem_cons_of_mem _ List.mem_cons_self)
  refine ⟨⟨wordExpression, wordLexed, wordSolid, ?_⟩, stringExpression, stringLexed,
    stringCrossed, ?_⟩
  · exact (lex_symbol_spec .not wordExpression wordLexed).1.2 wordSolid
  · exact fun close =>
      stringCrossed ((lex_symbol_spec .not stringExpression stringLexed).1.1 close)

/-- A string with a blank in it is one token, and with an exclamation mark close to it, it is cut at
the blank and refused. -/
theorem lex_symbol_crossed :
    lex "\"a b\"" = .ok [stringToken "a b".toList 0] ∧
      lex "!\"a b\"" = .error (.lex "\"a" ⟨1, 3⟩) := by
  have unquoted : '"' ∉ "a b".toList := by decide
  have string : Lexes "\"a b\"".toList fun start => [stringToken "a b".toList start] :=
    lexes_string unquoted
  have solid : ∀ c ∈ ['"', 'a'], isBlank c = false :=
    List.forall_mem_cons.2 ⟨rfl, List.forall_mem_singleton.2 rfl⟩
  have ends : EndsWord [' ', 'b', '"'] := by rintro c ⟨⟩; rfl
  have cut := lexFrom_symbol_append solid ends .not 0
  rcases wordTokens_quote ['a'] (0 + byteLength UnaryOp.not.symbol.toList) with
    ⟨body, closed, _⟩ | refused
  · simp [List.cons_eq_append_iff] at closed
  · rw [wordTokens_symbol .not (by simp) (by simp), refused] at cut
    exact ⟨lex_eq string, (lex_symbol .not "\"a b\"").trans cut⟩

end

end CellFormula
