import CellFormula.Proofs.Address.Reference
import CellFormula.Token.Lexer

/-!
# Words and their tokens

What the lexer makes of one word: the classes of words that are a token as they stand, the words
behind a unary operator, and the words in brackets that are no token.

Main statements: `wordTokens_of_kind?`, a word of a known kind is one token of that kind;
`wordTokens_symbol`, a unary operator is split off the word behind it; `wordTokens_bracket`, a word
that begins with a bracket and is no reference is refused.
-/

namespace CellFormula

/-! ## Kinds of words -/

theorem isReference_spelling {r : Reference} (formed : r.WellFormed) (braced : r.isBraced = true)
    (tight : r.gap = []) : isReference r.spelling = true := by
  have found := Reference.read?_spelling formed []
  rw [List.append_nil] at found
  simp [isReference, found, braced, tight]

theorem head?_of_isReference {word : List Char} (reference : isReference word = true) :
    word.head? = some '\x7b' := by
  unfold isReference at reference
  split at reference
  · next r found =>
    obtain ⟨_, spelt⟩ := Reference.read?_eq_some_iff.1 found
    simp only [decide_eq_true_eq, Reference.isBraced] at reference
    rw [spelt, List.append_nil, Reference.spelling, ← reference.1.1]
    rfl
  · cases reference

theorem isReference_of_head {c : Char} {word : List Char} (other : c ≠ '\x7b') :
    isReference (c :: word) = false := by
  rw [Bool.eq_false_iff]
  intro reference
  have first := head?_of_isReference reference
  cases first
  exact other rfl

theorem wordKind?_reference {word : List Char} (reference : isReference word = true) :
    wordKind? word = some .reference := by
  rw [wordKind?, if_pos reference]

theorem wordKind?_numeral {word : List Char} (nonempty : word ≠ [])
    (digits : ∀ c ∈ word, c.isDigit = true) : wordKind? word = some .integer := by
  have numeral : isNumeral word = true := by simpa [isNumeral, nonempty] using digits
  cases word with
  | nil => exact absurd rfl nonempty
  | cons c word =>
    have notBrace : c ≠ '\x7b' := by
      rintro rfl
      exact absurd (digits _ List.mem_cons_self) (by decide)
    rw [wordKind?, isReference_of_head notBrace, numeral]
    rfl

theorem wordKind?_fraction {whole fraction : List Char} (wholeSome : whole ≠ [])
    (wholeDigits : ∀ c ∈ whole, c.isDigit = true) (fractionSome : fraction ≠ [])
    (fractionDigits : ∀ c ∈ fraction, c.isDigit = true) :
    wordKind? (whole ++ '.' :: fraction) = some .float := by
  have stops : ∀ c ∈ ('.' :: fraction).head?, c.isDigit = false := by
    rintro c first
    cases first
    rfl
  have noNumeral : isNumeral (whole ++ '.' :: fraction) = false := by
    simp [isNumeral]
  have isFraction : isFraction (whole ++ '.' :: fraction) = true := by
    rw [CellFormula.isFraction, dropWhile_run wholeDigits stops, takeWhile_run wholeDigits stops]
    simpa [isNumeral, wholeSome, fractionSome] using fractionDigits
  cases whole with
  | nil => exact absurd rfl wholeSome
  | cons c whole =>
    have notBrace : c ≠ '\x7b' := by
      rintro rfl
      exact absurd (wholeDigits _ List.mem_cons_self) (by decide)
    rw [wordKind?, List.cons_append, isReference_of_head notBrace, ← List.cons_append, noNumeral,
      isFraction]
    rfl

/-! ## Tokens of a word -/

/-- The token of a word at byte `start` that is spelt as it stands. -/
def wordToken (kind : TokenKind) (word : List Char) (start : Nat) : Token :=
  ⟨kind, String.ofList word, Span.ofText start word, none⟩

/-- The token of a string at byte `start`. -/
def stringToken (body : List Char) (start : Nat) : Token :=
  ⟨.string, String.ofList body, Span.ofText start ('"' :: body ++ ['"']), none⟩

theorem quoted?_of_head {word : List Char} (plain : word.head? ≠ some '"') :
    quoted? word = none := by
  unfold quoted?
  split
  · exact absurd rfl plain
  · rfl

theorem wordTokens_of_kind? {word : List Char} {kind : TokenKind} (plain : quoted? word = none)
    (known : wordKind? word = some kind) (start : Nat) :
    wordTokens start word = .ok [wordToken kind word start] := by
  rw [wordTokens, wordToken?, plain, known]
  rfl

theorem wordTokens_string (body : List Char) (start : Nat) :
    wordTokens start ('"' :: body ++ ['"']) = .ok [stringToken body start] := by
  have inner : quoted? ('"' :: body ++ ['"']) = some body := by simp [quoted?]
  rw [wordTokens, wordToken?, inner]
  rfl

/-! ## Words that are taken apart -/

section

variable {start : Nat} {word : List Char} {op : UnaryOp}

theorem wordTokens_of_peel?_nil (unknown : wordToken? start word = none)
    (peeled : peel? word = some (op, [])) : wordTokens start word = .ok [unaryToken start op] := by
  rw [wordTokens, unknown]
  simp only
  split
  · next other same => rw [peeled] at same; cases same; rfl
  · next other c rest same => rw [peeled] at same; cases same
  · next absent => rw [peeled] at absent; cases absent

theorem wordTokens_of_peel?_cons {c : Char} {rest : List Char}
    (unknown : wordToken? start word = none) (peeled : peel? word = some (op, c :: rest)) :
    wordTokens start word = (do
      let tokens ← wordTokens (start + byteLength op.symbol.toList) (c :: rest)
      return unaryToken start op :: tokens) := by
  rw [wordTokens, unknown]
  simp only
  split
  · next other same => rw [peeled] at same; cases same
  · next other d tail same => rw [peeled] at same; cases same; rfl
  · next absent => rw [peeled] at absent; cases absent

theorem wordTokens_of_peel?_none (unknown : wordToken? start word = none)
    (unpeeled : peel? word = none) :
    wordTokens start word = .error (.lex (String.ofList word) (Span.ofText start word)) := by
  rw [wordTokens, unknown]
  simp only
  split
  · next other same => rw [unpeeled] at same; cases same
  · next other c rest same => rw [unpeeled] at same; cases same
  · rfl

end

theorem isBlank_symbol (op : UnaryOp) : ∀ c ∈ op.symbol.toList, isBlank c = false := by
  have dark : op.symbol.toList.all (fun c => isBlank c = false) = true := by cases op <;> rfl
  exact fun c mem => of_decide_eq_true (List.all_eq_true.1 dark c mem)

/-- A word that begins with a unary operator is no token as it stands, unless it is `!=`. -/
theorem wordToken?_symbol (op : UnaryOp) {word : List Char} (other : word ≠ ['=']) (start : Nat) :
    wordToken? start (op.symbol.toList ++ word) = none := by
  have spelt : ∀ kind ∈ TokenKind.fixed, ∀ s ∈ kind.spelling?, ∀ op ∈ UnaryOp.all,
      ∀ rest ∈ stripFront? op.symbol.toList s.toList, rest = ['='] := by decide
  have noFixed : (TokenKind.fixed.find? fun kind =>
      kind.spelling? = some (String.ofList (op.symbol.toList ++ word))) = none := by
    simp only [List.find?_eq_none, decide_eq_true_eq]
    intro kind fixed same
    refine other (spelt kind fixed _ same op op.mem_all word ?_)
    rw [String.toList_ofList]
    exact stripFront?_eq_some_iff.2 rfl
  have plain : quoted? (op.symbol.toList ++ word) = none := by cases op <;> rfl
  have unknown : wordKind? (op.symbol.toList ++ word) = none := by
    rw [wordKind?, noFixed]
    cases op <;> simp [UnaryOp.symbol, isReference_of_head, isNumeral, isFraction]
  rw [wordToken?, plain, unknown]
  rfl

theorem peel?_symbol (op : UnaryOp) (word : List Char) :
    peel? (op.symbol.toList ++ word) = some (op, word) := by
  cases op <;> rfl

theorem wordTokens_unary (op : UnaryOp) (start : Nat) :
    wordTokens start op.symbol.toList = .ok [unaryToken start op] := by
  have noEquals : ([] : List Char) ≠ ['='] := nofun
  rw [← List.append_nil op.symbol.toList]
  exact wordTokens_of_peel?_nil (wordToken?_symbol op noEquals start) (peel?_symbol op [])

/-- The tokens of a word behind a unary operator are those of the operator and of the word. -/
theorem wordTokens_symbol (op : UnaryOp) {word : List Char} (nonempty : word ≠ [])
    (other : word ≠ ['=']) (start : Nat) :
    wordTokens start (op.symbol.toList ++ word) = (do
      let tokens ← wordTokens (start + byteLength op.symbol.toList) word
      return unaryToken start op :: tokens) := by
  cases word with
  | nil => exact absurd rfl nonempty
  | cons c rest =>
    exact wordTokens_of_peel?_cons (wordToken?_symbol op other start) (peel?_symbol op (c :: rest))

/-! ## Words that are refused -/

theorem wordKind?_bracket {c d : Char} {word : List Char} (bracket : c = '\x7b' ∨ c = '(')
    (unread : isReference (c :: d :: word) = false) : wordKind? (c :: d :: word) = none := by
  have noDigit : c.isDigit = false := by rcases bracket with rfl | rfl <;> rfl
  have noNumeral : isNumeral (c :: d :: word) = false := by simp [isNumeral, noDigit]
  have noFraction : isFraction (c :: d :: word) = false := by
    rw [isFraction, List.dropWhile_cons_of_neg (by simp [noDigit])]
    rcases bracket with rfl | rfl <;> rfl
  have noBoolean : ¬ (c :: d :: word = "True".toList ∨ c :: d :: word = "False".toList) := by
    rcases bracket with rfl | rfl <;> simp
  rw [wordKind?, unread, noNumeral, noFraction, if_neg noBoolean]
  simp only [Bool.false_eq_true, if_false, List.find?_eq_none, decide_eq_true_eq]
  intro kind fixed spelt
  -- no token that is always spelt alike begins with a bracket and goes on
  have short : ∀ kind ∈ TokenKind.fixed, ∀ s ∈ kind.spelling?,
      s.toList.head? ∈ [some '\x7b', some '('] → s.toList.length = 1 := by decide
  have long := short kind fixed _ spelt
  rw [String.toList_ofList] at long
  rcases bracket with rfl | rfl <;> simp at long

theorem peel?_bracket {c : Char} {word : List Char} (bracket : c = '\x7b' ∨ c = '(') :
    peel? (c :: word) = none := by
  rw [peel?, List.findSome?_eq_none_iff]
  intro op _
  rcases bracket with rfl | rfl <;> cases op <;> rfl

/-- A word that begins with a bracket and goes on is a reference or refused. -/
theorem wordTokens_bracket {c d : Char} {word : List Char} (bracket : c = '\x7b' ∨ c = '(')
    (unread : isReference (c :: d :: word) = false) (start : Nat) :
    wordTokens start (c :: d :: word) =
      .error (.lex (String.ofList (c :: d :: word)) (Span.ofText start (c :: d :: word))) := by
  have plain : (c :: d :: word).head? ≠ some '"' := by rcases bracket with rfl | rfl <;> simp
  refine wordTokens_of_peel?_none ?_ (peel?_bracket bracket)
  rw [wordToken?, quoted?_of_head plain, wordKind?_bracket bracket unread]
  rfl

end CellFormula
