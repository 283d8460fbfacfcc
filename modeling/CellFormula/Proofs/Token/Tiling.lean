import CellFormula.Proofs.Token.Assignment

/-!
# Where tokens stand

Every byte of a formula is accounted for: the tokens stand in it in their order, one behind the
other, and all else is blank. What the lexer refuses it points at.

`Tiles start text tokens` says this of a text at byte `start`, character by character, and is what
every step of the lexer keeps; `Span.Covers` says it of a span and a whole formula.

Main statements: `tokenized_lexFrom`, the lexer tiles a text or points at a part of it; `lex_spec`,
what the lexer makes of a formula, be it an assignment or not.
-/

namespace CellFormula

/-! ## Texts in tiles -/

namespace Token

/-- The text that a token stands for. -/
def written (t : Token) : List Char :=
  if t.kind = .string then '"' :: t.source.toList ++ ['"'] else t.source.toList

/-- The token is a word of a formula: no assignment, and free of blanks unless it is a string. -/
structure IsWord (t : Token) : Prop where
  noAssignment : t.kind ≠ .assignment
  solid : t.kind ≠ .string → ∀ c ∈ t.source.toList, isBlank c = false

end Token

/-- The text at byte `start` consists of the tokens, in order, and of blanks between them. -/
inductive Tiles : Nat → List Char → List Token → Prop
  | done {start : Nat} : Tiles start [] []
  | blank {start : Nat} {c : Char} {text : List Char} {tokens : List Token}
      (blank : isBlank c = true) (rest : Tiles (start + c.utf8Size) text tokens) :
      Tiles start (c :: text) tokens
  | token {start : Nat} {token : Token} {text : List Char} {tokens : List Token}
      (placed : token.span = Span.ofText start token.written) (word : token.IsWord)
      (rest : Tiles (start + byteLength token.written) text tokens) :
      Tiles start (token.written ++ text) (token :: tokens)

namespace Tiles

variable {start : Nat} {text left right : List Char} {tokens leftTokens rightTokens : List Token}

theorem single (start : Nat) (token : Token) (placed : token.span = Span.ofText start token.written)
    (word : token.IsWord) : Tiles start token.written [token] := by
  have rest : Tiles (start + byteLength token.written) [] [] := .done
  have tile := Tiles.token placed word rest
  rwa [List.append_nil] at tile

theorem append (leftTiles : Tiles start left leftTokens)
    (rightTiles : Tiles (start + byteLength left) right rightTokens) :
    Tiles start (left ++ right) (leftTokens ++ rightTokens) := by
  induction leftTiles with
  | done => exact rightTiles
  | blank blank _ ih =>
    refine .blank blank (ih ?_)
    rwa [Nat.add_assoc]
  | token placed word _ ih =>
    rw [List.append_assoc]
    refine .token placed word (ih ?_)
    rwa [Nat.add_assoc, ← byteLength_append]

theorem isWord (tiles : Tiles start text tokens) : ∀ token ∈ tokens, token.IsWord := by
  induction tiles with
  | done => exact nofun
  | blank _ _ ih => exact ih
  | token _ word _ ih => exact List.forall_mem_cons.2 ⟨word, ih⟩

/-- Each token stands at its span. -/
theorem covers (tiles : Tiles start text tokens) : ∀ token ∈ tokens, ∃ before after,
    text = before ++ token.written ++ after ∧
      token.span = Span.ofText (start + byteLength before) token.written := by
  induction tiles with
  | done => exact nofun
  | @blank start c text tokens _ _ ih =>
    intro token mem
    obtain ⟨before, after, rfl, placed⟩ := ih token mem
    refine ⟨c :: before, after, rfl, ?_⟩
    rw [placed, byteLength_cons, Nat.add_assoc]
  | @token start first text tokens placed _ _ ih =>
    intro token mem
    rcases List.mem_cons.1 mem with rfl | mem
    · exact ⟨[], text, rfl, placed⟩
    · obtain ⟨before, after, rfl, behind⟩ := ih token mem
      refine ⟨first.written ++ before, after, by simp, ?_⟩
      rw [behind, byteLength_append, Nat.add_assoc]

/-- The spans follow one behind the other. -/
theorem apart (tiles : Tiles start text tokens) :
    tokens.Pairwise fun first second => first.span.stop ≤ second.span.start := by
  induction tiles with
  | done => exact List.Pairwise.nil
  | blank _ _ ih => exact ih
  | token placed _ rest ih =>
    refine List.pairwise_cons.2 ⟨fun second mem => ?_, ih⟩
    obtain ⟨before, _, _, behind⟩ := rest.covers second mem
    rw [placed, behind]
    exact Nat.le_add_right _ _

/-- A character that no span covers is blank. -/
theorem isBlank_of_outside (tiles : Tiles start text tokens) {before after : List Char} {c : Char}
    (split : text = before ++ c :: after)
    (outside : ∀ token ∈ tokens, ¬ (token.span.start ≤ start + byteLength before ∧
      start + byteLength before < token.span.stop)) : isBlank c = true := by
  induction tiles generalizing before with
  | done => exact absurd split (by simp)
  | @blank start d text tokens blank _ ih =>
    cases before with
    | nil => cases split; exact blank
    | cons e before =>
      cases split
      refine ih rfl ?_
      rwa [byteLength_cons, ← Nat.add_assoc] at outside
  | @token start first text tokens placed _ _ ih =>
    rcases inside_or_behind split with ⟨between, inside, _⟩ | ⟨between, rfl, behind⟩
    · -- the character lies in the first token
      have width := c.utf8Size_pos
      have covered := outside first List.mem_cons_self
      rw [placed, Span.ofText, inside, byteLength_append, byteLength_cons] at covered
      simp only at covered
      omega
    · refine ih behind fun token mem => ?_
      have apart := outside token (List.mem_cons_of_mem _ mem)
      rwa [byteLength_append, ← Nat.add_assoc] at apart

end Tiles

/-! ## What the lexer answers -/

/-- An answer of the lexer for the text at byte `start`: tokens that tile the text, or an error that
points at a part of it. -/
def Tokenized (start : Nat) (text : List Char) : Except FormulaError (List Token) → Prop
  | .ok tokens => Tiles start text tokens
  | .error e => ∃ before part after, text = before ++ part ++ after ∧
      e = .lex (String.ofList part) (Span.ofText (start + byteLength before) part)

section Tokenized

variable {start : Nat} {word left right : List Char}

theorem tokenized_refused (start : Nat) (word : List Char) :
    Tokenized start word (.error (.lex (String.ofList word) (Span.ofText start word))) :=
  ⟨[], word, [], by simp, rfl⟩

theorem Tokenized.append {x y : Except FormulaError (List Token)} (first : Tokenized start left x)
    (second : Tokenized (start + byteLength left) right y) :
    Tokenized start (left ++ right) (do
      let tokens ← x
      let others ← y
      return tokens ++ others) := by
  cases x with
  | error e =>
    obtain ⟨before, part, after, rfl, pointed⟩ := first
    exact ⟨before, part, after ++ right, by simp, pointed⟩
  | ok tokens =>
    cases y with
    | error e =>
      obtain ⟨before, part, after, rfl, pointed⟩ := second
      refine ⟨left ++ before, part, after, by simp, ?_⟩
      rw [pointed, byteLength_append, Nat.add_assoc]
    | ok others => exact Tiles.append first second

/-! ### Words -/

theorem quoted?_eq_some {body : List Char} (quoted : quoted? word = some body) :
    word = '"' :: body ++ ['"'] := by
  unfold quoted? at quoted
  split at quoted
  · next rest =>
    split at quoted
    · next closed =>
      obtain ⟨inner, rfl⟩ := List.getLast?_eq_some_iff.1 closed
      rw [List.dropLast_concat] at quoted
      cases quoted
      rfl
    · cases quoted
  · cases quoted

theorem written_stringToken (body : List Char) (start : Nat) :
    (stringToken body start).written = '"' :: body ++ ['"'] := by
  simp [stringToken, Token.written]

theorem tiles_string (body : List Char) (start : Nat) :
    Tiles start ('"' :: body ++ ['"']) [stringToken body start] := by
  have word : (stringToken body start).IsWord := ⟨nofun, fun other => absurd rfl other⟩
  rw [← written_stringToken body start]
  exact .single start _ (by rw [written_stringToken]; rfl) word

/-- The kinds of words are neither strings nor assignments. -/
theorem wordKind?_plain {kind : TokenKind} (known : wordKind? word = some kind) :
    kind ≠ .string ∧ kind ≠ .assignment := by
  have fixed : ∀ kind ∈ TokenKind.fixed, kind ≠ .string ∧ kind ≠ .assignment := by decide
  unfold wordKind? at known
  split at known
  · cases known; decide
  · split at known
    · cases known; decide
    · split at known
      · cases known; decide
      · split at known
        · cases known; decide
        · exact fixed kind (List.mem_of_find?_eq_some known)

theorem tiles_wordToken? {token : Token} (solid : ∀ c ∈ word, isBlank c = false)
    (found : wordToken? start word = some token) : Tiles start word [token] := by
  unfold wordToken? at found
  split at found
  · next body quoted =>
    cases found
    rw [quoted?_eq_some quoted]
    exact tiles_string body start
  · obtain ⟨kind, known, rfl⟩ := Option.map_eq_some_iff.1 found
    obtain ⟨noString, noAssignment⟩ := wordKind?_plain known
    have tile := Tiles.single start ⟨kind, String.ofList word, Span.ofText start word, none⟩
      (by simp [Token.written, noString]) ⟨noAssignment, fun _ => by simpa using solid⟩
    simpa [Token.written, noString] using tile

theorem tiles_unaryToken {op : UnaryOp} (solid : ∀ c ∈ op.symbol.toList, isBlank c = false)
    (start : Nat) : Tiles start op.symbol.toList [unaryToken start op] :=
  Tiles.single start (unaryToken start op) rfl ⟨nofun, fun _ => solid⟩

/-- A word without blanks is cut into tokens, or refused for the sake of what is left of it. -/
theorem tokenized_wordTokens (start : Nat) (solid : ∀ c ∈ word, isBlank c = false) :
    Tokenized start word (wordTokens start word) := by
  fun_induction wordTokens start word with
  | case1 start word token found => exact tiles_wordToken? solid found
  | case2 start word _ op peeled =>
    rw [eq_append_of_peel? peeled, List.append_nil] at solid ⊢
    exact tiles_unaryToken solid start
  | case3 start word _ op c rest peeled ih =>
    rw [eq_append_of_peel? peeled] at solid ⊢
    obtain ⟨marker, behind⟩ := List.forall_mem_append.1 solid
    have first : Tokenized start op.symbol.toList (.ok [unaryToken start op]) :=
      tiles_unaryToken marker start
    exact first.append (ih behind)
  | case4 start word _ _ => exact tokenized_refused start word

/-! ### Texts -/

/-- A word as it is cut out of a text: a string, which ends at its second quote, or else a word
without blanks. -/
inductive IsCut : List Char → Prop
  | string {body : List Char} (unquoted : '"' ∉ body) : IsCut ('"' :: body ++ ['"'])
  | plain {word : List Char} (noString : word.head? ≠ some '"')
      (solid : ∀ c ∈ word, isBlank c = false) : IsCut word
theorem of_firstWord?_eq_some {text rest : List Char}
    (first : firstWord? text = some (word, rest)) :
    text = word ++ rest ∧ IsCut word := by
  unfold firstWord? at first
  split at first
  · next text =>
    split at first
    · next close behind closed =>
      cases first
      have quote : close = '"' := by simpa using of_head_dropWhile closed
      subst quote
      have whole := List.takeWhile_append_dropWhile (p := fun c => decide (c ≠ '"')) (l := text)
      rw [closed] at whole
      refine ⟨by simpa using whole.symm, .string fun mem => ?_⟩
      exact of_decide_eq_true (of_mem_takeWhile mem) rfl
    · cases first
  · next noString =>
    cases first
    refine ⟨List.takeWhile_append_dropWhile.symm, .plain (fun quote => ?_) fun c mem => ?_⟩
    · obtain ⟨word, found⟩ := List.head?_eq_some_iff.1 quote
      have whole := List.takeWhile_append_dropWhile (p := (!isBlank ·)) (l := text)
      rw [found] at whole
      exact noString _ whole.symm
    · simpa using of_mem_takeWhile mem

theorem tokenized_word (start : Nat) (cut : IsCut word) :
    Tokenized start word (wordTokens start word) := by
  cases cut with
  | @string body _ =>
    rw [wordTokens_string]
    exact tiles_string body start
  | plain _ solid => exact tokenized_wordTokens start solid

/-- The lexer cuts a text into tokens that tile it, or points at the part that it refuses. -/
theorem tokenized_lexFrom (start : Nat) (text : List Char) :
    Tokenized start text (lexFrom start text) := by
  fun_induction lexFrom start text with
  | case1 start => exact .done
  | case2 start c text dark word rest first ih =>
    obtain ⟨whole, cut⟩ := of_firstWord?_eq_some first
    rw [whole]
    exact (tokenized_word start cut).append ih
  | case3 start c text dark unclosed => exact tokenized_refused start (c :: text)
  | case4 start c text light ih =>
    have blank : Tokenized start [c] (.ok []) := .blank (by simpa using light) .done
    have both := blank.append ih
    cases answer : lexFrom (start + c.utf8Size) text with
    | error e => rw [answer] at both; exact both
    | ok tokens => rw [answer] at both; exact both

end Tokenized

/-! ## Spans in a formula -/

theorem utf8ByteSize_ofList (text : List Char) :
    (String.ofList text).utf8ByteSize = byteLength text := by
  induction text with
  | nil => rfl
  | cons c text ih =>
    rw [String.ofList_cons, String.utf8ByteSize_append, String.utf8ByteSize_singleton, ih,
      byteLength_cons]

/-- The span cuts the part out of the formula: it is in range, begins and ends between characters,
and what is between is the part. -/
def Span.Covers (span : Span) (formula part : String) : Prop :=
  ∃ before after : String, formula = before ++ part ++ after ∧
    span.start = before.utf8ByteSize ∧ span.stop = before.utf8ByteSize + part.utf8ByteSize

theorem covers_ofText {formula : String} {before part after : List Char}
    (split : formula.toList = before ++ part ++ after) :
    (Span.ofText (byteLength before) part).Covers formula (String.ofList part) := by
  refine ⟨String.ofList before, String.ofList after, ?_, ?_, ?_⟩
  · rw [← String.ofList_append, ← String.ofList_append, ← split, String.ofList_toList]
  · rw [utf8ByteSize_ofList]
    rfl
  · rw [utf8ByteSize_ofList, utf8ByteSize_ofList]
    rfl

/-- A character of the formula before which there are so many bytes lies outside the span. -/
def Span.Excludes (span : Span) (place : Nat) : Prop := place < span.start ∨ span.stop ≤ place

/-- The token stands in the formula where its span says. -/
def Token.StandsIn (t : Token) (formula : String) : Prop :=
  t.span.Covers formula (String.ofList t.written)

theorem Tiles.standsIn {formula : String} {tokens : List Token}
    (tiles : Tiles 0 formula.toList tokens) : ∀ token ∈ tokens, token.StandsIn formula := by
  intro token mem
  obtain ⟨before, after, split, placed⟩ := tiles.covers token mem
  rw [Nat.zero_add] at placed
  rw [Token.StandsIn, placed]
  exact covers_ofText split

theorem Tiles.isBlank_of_excluded {formula before after : String} {c : Char} {tokens : List Token}
    (tiles : Tiles 0 formula.toList tokens)
    (split : formula = before ++ String.singleton c ++ after)
    (outside : ∀ token ∈ tokens, token.span.Excludes before.utf8ByteSize) : isBlank c = true := by
  have place : byteLength before.toList = before.utf8ByteSize := by
    rw [← utf8ByteSize_ofList, String.ofList_toList]
  have characters : formula.toList = before.toList ++ c :: after.toList := by simp [split]
  refine tiles.isBlank_of_outside characters fun token mem => ?_
  rw [Nat.zero_add, place]
  have apart := outside token mem
  unfold Span.Excludes at apart
  omega

/-! ## Formulas -/

/-- The tokens of an assignment: a single one, for the body. -/
theorem tokens_of_assigns {formula : String} {target : Reference} {body : List Char}
    (assigns : Assigns formula.toList target body) :
    (∃ token, lex formula = .ok [token] ∧ token.kind = .assignment ∧
      token.source = String.ofList body ∧ token.StandsIn formula) ∨
    ∃ cause, lex formula = .error (.coordinates (.malformed cause)) ∧
      (¬ Integer.Fits (Column.value target.letters) ∨
        ¬ Integer.Fits (Numeral.value target.row)) := by
  obtain ⟨before, after, split, place⟩ := assigns.exists_split
  rw [lex]
  simp only [assigns.assignment?, assignmentToken]
  cases named : target.address with
  | error cause =>
    exact Or.inr
      ⟨cause, rfl, (Reference.exists_address_eq_error_iff assigns.formed).1 ⟨cause, named⟩⟩
  | ok a =>
    refine Or.inl ⟨_, rfl, rfl, rfl, ?_⟩
    have written : Token.written ⟨.assignment, String.ofList body,
        Span.ofText (byteLength before) body, some a⟩ = body := by simp [Token.written]
    rw [place, Token.StandsIn, written]
    exact covers_ofText split

/-- The lexer answers in one of three ways. It finds tokens that stand in the formula one behind the
other: the one of an assignment, or else words that leave out nothing but blanks. Or it points at a
part of the formula that is no word. Or the formula assigns to a target that is no address, its
column or its row being too large. -/
theorem lex_spec (formula : String) :
    (∃ tokens, lex formula = .ok tokens ∧
      (∀ token ∈ tokens, token.StandsIn formula) ∧
      tokens.Pairwise (fun first second => first.span.stop ≤ second.span.start) ∧
      ((∃ target body, Assigns formula.toList target body ∧ ∃ token, tokens = [token] ∧
          token.kind = .assignment ∧ token.source = String.ofList body) ∨
        (¬ ∃ target body, Assigns formula.toList target body) ∧
          (∀ token ∈ tokens, token.IsWord) ∧
          ∀ before c after, formula = before ++ String.singleton c ++ after →
            (∀ token ∈ tokens, token.span.Excludes before.utf8ByteSize) → isBlank c = true)) ∨
    (∃ part span, lex formula = .error (.lex part span) ∧ span.Covers formula part) ∨
    ∃ cause target body, lex formula = .error (.coordinates (.malformed cause)) ∧
      Assigns formula.toList target body ∧
      (¬ Integer.Fits (Column.value target.letters) ∨
        ¬ Integer.Fits (Numeral.value target.row)) := by
  cases form : assignment? formula.toList with
  | some parts =>
    obtain ⟨target, body⟩ := parts
    have assigns := assignment?_eq_some_iff.1 form
    rcases tokens_of_assigns assigns with
      ⟨token, lexed, kind, source, stands⟩ | ⟨cause, lexed, unfit⟩
    · exact Or.inl ⟨[token], lexed, List.forall_mem_singleton.2 stands, List.pairwise_singleton _ _,
        Or.inl ⟨target, body, assigns, token, rfl, kind, source⟩⟩
    · exact Or.inr (Or.inr ⟨cause, target, body, lexed, assigns, unfit⟩)
  | none =>
    have noAssignment : ¬ ∃ target body, Assigns formula.toList target body := by
      rintro ⟨target, body, assigns⟩
      rw [assigns.assignment?] at form
      cases form
    have answer : lex formula = lexFrom 0 formula.toList := by simp only [lex, form]
    have tokenized := tokenized_lexFrom 0 formula.toList
    rw [← answer] at tokenized
    cases lexed : lex formula with
    | ok tokens =>
      rw [lexed] at tokenized
      exact Or.inl ⟨tokens, rfl, tokenized.standsIn, Tiles.apart tokenized,
        Or.inr ⟨noAssignment, Tiles.isWord tokenized,
          fun _ _ _ => Tiles.isBlank_of_excluded tokenized⟩⟩
    | error e =>
      rw [lexed] at tokenized
      obtain ⟨before, part, after, split, rfl⟩ := tokenized
      rw [Nat.zero_add]
      exact Or.inr (Or.inl ⟨_, _, rfl, covers_ofText split⟩)

end CellFormula
