import CellFormula.Proofs.Token.Lexer

/-!
# Lexemes

A lexeme is a word of a formula that is one token as it stands. The words that the language gives to
its operators and functions are written out here, apart from the tables of the lexer. `layOut`
writes lexemes one after another with blanks around them.

Main statements: `BinaryOp.symbol_eq_word` and its likes, the tables of the lexer hold the words of
the language; `Lexeme.lexes`, every lexeme lexes to its own token; `lex_layOut`, so lexemes with
blanks between them lex to their tokens, each where it stands, whatever the lexemes and the blanks
are.
-/

namespace CellFormula

/-! ## Classes of words -/

/-- The text is a word without blanks and quotes, and a token of this kind as it stands. -/
def IsWordOf (kind : TokenKind) (word : List Char) : Prop :=
  word ≠ [] ∧ word.head? ≠ some '"' ∧ (∀ c ∈ word, isBlank c = false) ∧ wordKind? word = some kind

instance (kind : TokenKind) (word : List Char) : Decidable (IsWordOf kind word) :=
  haveI : Decidable (∀ c ∈ word, isBlank c = false) := List.decidableBAll _ word
  inferInstanceAs (Decidable (_ ∧ _ ∧ _ ∧ _))

theorem IsWordOf.lexes {kind : TokenKind} {word : List Char} (isWord : IsWordOf kind word) :
    Lexes word fun start => [wordToken kind word start] := by
  obtain ⟨nonempty, plain, dark, known⟩ := isWord
  exact lexes_plain nonempty plain dark (wordTokens_of_kind? (quoted?_of_head plain) known)

theorem isWordOf_reference {r : Reference} (formed : r.WellFormed) (braced : r.isBraced = true)
    (tight : r.gap = []) : IsWordOf .reference r.spelling := by
  obtain ⟨letter, rest, _, shape⟩ := head_braced formed braced
  refine ⟨by simp [shape], by simp [shape], fun c mem => ?_,
    wordKind?_reference (isReference_spelling formed braced tight)⟩
  simp only [Reference.isBraced, decide_eq_true_eq] at braced
  simp only [Reference.spelling, tight, braced, List.mem_append, List.mem_cons, List.not_mem_nil,
    or_false] at mem
  rcases mem with (((rfl | letter) | rfl) | digit) | rfl
  · rfl
  · exact isBlank_of_isUpper (formed.letters c letter)
  · rfl
  · exact isBlank_of_isDigit (formed.row c digit)
  · rfl

theorem isWordOf_digits {word : List Char} (nonempty : word ≠ [])
    (digits : ∀ c ∈ word, c.isDigit = true) : IsWordOf .integer word := by
  refine ⟨nonempty, fun quote => ?_, fun c mem => isBlank_of_isDigit (digits c mem),
    wordKind?_numeral nonempty digits⟩
  exact absurd (digits _ (List.mem_of_mem_head? quote)) (by decide)

theorem isWordOf_fraction {whole fraction : List Char} (wholeSome : whole ≠ [])
    (wholeDigits : ∀ c ∈ whole, c.isDigit = true) (fractionSome : fraction ≠ [])
    (fractionDigits : ∀ c ∈ fraction, c.isDigit = true) :
    IsWordOf .float (whole ++ '.' :: fraction) := by
  have solid : ∀ c ∈ whole ++ '.' :: fraction, c = '.' ∨ c.isDigit = true := by
    intro c mem
    rw [List.mem_append, List.mem_cons] at mem
    rcases mem with mem | point | mem
    · exact Or.inr (wholeDigits c mem)
    · exact Or.inl point
    · exact Or.inr (fractionDigits c mem)
  refine ⟨by simp, fun quote => ?_, fun c mem => ?_,
    wordKind?_fraction wholeSome wholeDigits fractionSome fractionDigits⟩
  · exact absurd (solid _ (List.mem_of_mem_head? quote)) (by decide)
  · rcases solid c mem with rfl | digit
    · rfl
    · exact isBlank_of_isDigit digit

theorem lexes_fixed {kind : TokenKind} {word : String} (fixed : kind ∈ TokenKind.fixed)
    (spelt : kind.spelling? = some word) :
    Lexes word.toList fun start => [wordToken kind word.toList start] := by
  have all : ∀ kind ∈ TokenKind.fixed, ∀ word ∈ kind.spelling?, IsWordOf kind word.toList := by
    decide
  exact (all kind fixed word spelt).lexes

theorem lexes_binary (op : BinaryOp) :
    Lexes op.symbol.toList fun start => [wordToken (.binary op) op.symbol.toList start] :=
  lexes_fixed (List.mem_append_right _ (List.mem_map_of_mem op.mem_all)) rfl

theorem lexes_aggregate (fn : Aggregate) :
    Lexes fn.name.toList fun start => [wordToken (.aggregate fn) fn.name.toList start] :=
  lexes_fixed
    (List.mem_append_left _ (List.mem_append_right _ (List.mem_map_of_mem fn.mem_all))) rfl

theorem lexes_leftParen : Lexes "(".toList fun start => [wordToken .leftParen "(".toList start] :=
  lexes_fixed (by decide) rfl

theorem lexes_rightParen :
    Lexes ")".toList fun start => [wordToken .rightParen ")".toList start] :=
  lexes_fixed (by decide) rfl

theorem lexes_unary (op : UnaryOp) :
    Lexes op.symbol.toList fun start => [unaryToken start op] := by
  refine lexes_plain ?_ ?_ (isBlank_symbol op) (wordTokens_unary op)
  · cases op <;> decide
  · cases op <;> decide

/-! ## Words of the language

What the tables of the lexer are held against.
-/

def UnaryOp.word : UnaryOp → String
  | .not => "!"
  | .bitNot => "~"
  | .toInteger => "Int"
  | .toFloat => "Float"

def Aggregate.word : Aggregate → String
  | .max => "Max"
  | .min => "Min"
  | .sum => "Sum"
  | .mean => "Mean"

def BinaryOp.word : BinaryOp → String
  | .add => "+"
  | .subtract => "-"
  | .multiply => "*"
  | .divide => "/"
  | .modulo => "%"
  | .exponent => "**"
  | .and => "&&"
  | .or => "||"
  | .bitAnd => "&"
  | .bitOr => "|"
  | .bitXor => "^"
  | .shiftLeft => "<<"
  | .shiftRight => ">>"
  | .lessThan => "<"
  | .lessEqual => "<="
  | .greaterThan => ">"
  | .greaterEqual => ">="
  | .equal => "=="
  | .notEqual => "!="

theorem UnaryOp.symbol_eq_word (op : UnaryOp) : op.symbol = op.word := by
  cases op <;> rfl

theorem Aggregate.name_eq_word (fn : Aggregate) : fn.name = fn.word := by
  cases fn <;> rfl

theorem BinaryOp.symbol_eq_word (op : BinaryOp) : op.symbol = op.word := by
  cases op <;> rfl

/-! ## Lexemes -/

/-- A word of a formula that is one token as it stands. -/
inductive Lexeme where
  | reference (letters : Run Char.isUpper) (row : Run Char.isDigit)
  | integer (digits : Run Char.isDigit)
  | float (whole fraction : Run Char.isDigit)
  | boolean (b : Bool)
  | string (body : List Char) (unquoted : '"' ∉ body)
  | leftParen
  | rightParen
  | unary (op : UnaryOp)
  | aggregate (fn : Aggregate)
  | binary (op : BinaryOp)

namespace Lexeme

def kind : Lexeme → TokenKind
  | reference _ _ => .reference
  | integer _ => .integer
  | float _ _ => .float
  | boolean _ => .boolean
  | string _ _ => .string
  | leftParen => .leftParen
  | rightParen => .rightParen
  | unary op => .unary op
  | aggregate fn => .aggregate fn
  | binary op => .binary op

/-- What the token of the lexeme keeps of it. -/
def source : Lexeme → List Char
  | reference letters row => '\x7b' :: letters.text ++ ',' :: row.text ++ ['\x7d']
  | integer digits => digits.text
  | float whole fraction => whole.text ++ '.' :: fraction.text
  | boolean b => (if b then "True" else "False").toList
  | string body _ => body
  | leftParen => ['(']
  | rightParen => [')']
  | unary op => op.word.toList
  | aggregate fn => fn.word.toList
  | binary op => op.word.toList

/-- The characters of the lexeme: its source, which for a string stands between quotes. -/
def written : Lexeme → List Char
  | string body _ => '"' :: body ++ ['"']
  | lexeme => lexeme.source

/-- The token of the lexeme when it stands at byte `start`. -/
def token (lexeme : Lexeme) (start : Nat) : Token :=
  ⟨lexeme.kind, String.ofList lexeme.source, ⟨start, start + byteLength lexeme.written⟩, none⟩

/-- Wherever a lexeme stands, the lexer makes one token of it, its own. -/
theorem lexes (lexeme : Lexeme) : Lexes lexeme.written fun start => [lexeme.token start] := by
  cases lexeme with
  | reference letters row =>
    have formed : Reference.WellFormed ⟨'\x7b', letters.text, [], row.text, '\x7d'⟩ :=
      ⟨letters.nonempty, letters.all, nofun, row.nonempty, row.all, rfl⟩
    have spelt : (reference letters row).written =
        Reference.spelling ⟨'\x7b', letters.text, [], row.text, '\x7d'⟩ := by
      simp [written, source, Reference.spelling]
    have isWord : IsWordOf .reference (reference letters row).written :=
      spelt ▸ isWordOf_reference formed rfl rfl
    exact isWord.lexes
  | integer digits => exact (isWordOf_digits digits.nonempty digits.all).lexes
  | float whole fraction =>
    exact (isWordOf_fraction whole.nonempty whole.all fraction.nonempty fraction.all).lexes
  | boolean b => cases b <;> exact IsWordOf.lexes (by decide)
  | string body unquoted => exact lexes_string unquoted
  | leftParen => exact lexes_leftParen
  | rightParen => exact lexes_rightParen
  | unary op =>
    have same : (unary op).token = fun start => unaryToken start op := by
      funext start
      simp only [token, kind, source, written, unaryToken, Span.ofText, op.symbol_eq_word,
        String.ofList_toList]
    have spelt := lexes_unary op
    rw [op.symbol_eq_word] at spelt
    rw [same]
    exact spelt
  | aggregate fn =>
    have spelt := lexes_aggregate fn
    rw [fn.name_eq_word] at spelt
    exact spelt
  | binary op =>
    have spelt := lexes_binary op
    rw [op.symbol_eq_word] at spelt
    exact spelt

end Lexeme

/-! ## Lexemes in a row -/

/-- The lexemes one after another. The first stands behind the blanks of `gaps 0`, each of the
others behind those of the gap with its number, and at the end stand those of one more gap. -/
def layOut (gaps : Nat → List Char) : List Lexeme → List Char
  | [] => gaps 0
  | lexeme :: rest => gaps 0 ++ lexeme.written ++ layOut (fun n => gaps (n + 1)) rest

/-- The gaps around so many lexemes are blank, and those between two of them are not empty. -/
structure Separates (gaps : Nat → List Char) (count : Nat) : Prop where
  blank : ∀ n, ∀ c ∈ gaps n, isBlank c = true
  nonempty : ∀ n, 0 < n → n < count → gaps n ≠ []

section

variable {gaps : Nat → List Char} {lexeme : Lexeme} {lexemes : List Lexeme}

theorem Separates.tail (separates : Separates gaps (lexeme :: lexemes).length) :
    Separates (fun n => gaps (n + 1)) lexemes.length where
  blank := fun n => separates.blank (n + 1)
  nonempty := fun n _ below => separates.nonempty (n + 1) n.succ_pos (Nat.succ_lt_succ below)

/-- Behind a lexeme no word goes on. -/
theorem Separates.endsWord (separates : Separates gaps (lexeme :: lexemes).length) :
    EndsWord (layOut (fun n => gaps (n + 1)) lexemes) := by
  have blank := separates.blank 1
  cases lexemes with
  | nil => exact fun c first => blank c (List.mem_of_mem_head? first)
  | cons next rest =>
    have nonempty : gaps 1 ≠ [] := separates.nonempty 1 Nat.one_pos (by simp)
    rw [layOut, List.append_assoc]
    exact endsWord_append nonempty blank

/-- The lexer makes of each lexeme its token, which stands behind all that is before the lexeme. -/
theorem lexFrom_layOut (separates : Separates gaps lexemes.length) (start : Nat) :
    lexFrom start (layOut gaps lexemes) =
      .ok (lexemes.mapIdx fun n lexeme =>
        lexeme.token (start + byteLength (layOut gaps (lexemes.take n)))) := by
  induction lexemes generalizing gaps start with
  | nil =>
    have blank := lexFrom_blanks (separates.blank 0) start []
    rw [List.append_nil, lexFrom] at blank
    exact blank
  | cons lexeme rest ih =>
    have first := lexeme.lexes (start + byteLength (gaps 0)) _ separates.endsWord
    rw [layOut, List.append_assoc, lexFrom_blanks (separates.blank 0), first, ih separates.tail]
    simp only [Except.map, List.mapIdx_cons, List.take_zero, List.take_succ_cons, layOut,
      byteLength_append, List.singleton_append, Nat.add_assoc]

/-- Lexing undoes laying out: a text of lexemes with blanks between them has the tokens of the
lexemes in their order, each with the span at which its lexeme is written, and is no assignment. -/
theorem lex_layOut (separates : Separates gaps lexemes.length) :
    lex (String.ofList (layOut gaps lexemes)) =
      .ok (lexemes.mapIdx fun n lexeme =>
        lexeme.token (byteLength (layOut gaps (lexemes.take n)))) ∧
    assignment? (layOut gaps lexemes) = none := by
  have lexed := lexFrom_layOut separates 0
  simp only [Nat.zero_add] at lexed
  refine ⟨lex_of_lexFrom ?_, assignment?_eq_none lexed⟩
  rwa [String.toList_ofList]

end

/-- A reference and a string are two words, though there are square brackets in the string. The
blank between them takes three bytes. -/
theorem lex_layOut_string :
    let gaps : Nat → List Char := fun n => if n = 1 then ['\u2003'] else []
    let column : Run Char.isUpper :=
      ⟨['A'], List.cons_ne_nil _ _, List.forall_mem_singleton.2 rfl⟩
    let row : Run Char.isDigit := ⟨['1'], List.cons_ne_nil _ _, List.forall_mem_singleton.2 rfl⟩
    Separates gaps 2 ∧
      lex "\x7bA,1\x7d\u2003\"[2]\"" =
        .ok [(Lexeme.reference column row).token 0,
          (Lexeme.string "[2]".toList (by decide)).token 8] := by
  intro gaps column row
  have separates : Separates gaps 2 := by
    refine ⟨fun n c mem => ?_, fun n above below => ?_⟩
    · by_cases second : n = 1
      · obtain rfl : c = '\u2003' := by simpa [gaps, second] using mem
        decide
      · simp [gaps, second] at mem
    · obtain rfl : n = 1 := by omega
      exact List.cons_ne_nil _ _
  let lexemes : List Lexeme := [.reference column row, .string "[2]".toList (by decide)]
  exact ⟨separates, (lex_layOut (show Separates gaps lexemes.length from separates)).1⟩

end CellFormula
