import CellFormula.Proofs.Token.Word

/-!
# Lexing words in a row

`Lexes text tokens` says that the lexer makes `tokens` of `text` wherever it stands, as long as no
word goes on behind it; `Refuses c text` that it stops there at a word that begins with `c`. Both
carry over from words to words with blanks between them.

Main statements: `lex_eq`, a text that lexes has these tokens as a formula, for it is no assignment;
`lex_of_refuses`, a formula is refused for the sake of a word that begins otherwise than an
assignment.
-/

namespace CellFormula

/-- No word goes on here: the text is at its end or begins with a blank. -/
def EndsWord (rest : List Char) : Prop := ∀ c ∈ rest.head?, isBlank c = true

/-- Whatever follows the text behind a blank, its tokens come first. -/
def Lexes (text : List Char) (tokens : Nat → List Token) : Prop :=
  ∀ start rest, EndsWord rest →
    lexFrom start (text ++ rest) =
      (lexFrom (start + byteLength text) rest).map (tokens start ++ ·)

/-- Whatever follows the text behind a blank, it has no tokens, because of a word that begins with
`c`. -/
def Refuses (c : Char) (text : List Char) : Prop :=
  ∀ start rest, EndsWord rest →
    ∃ word span, lexFrom start (text ++ rest) = .error (.lex (String.ofList (c :: word)) span)

/-! ## Single words -/

theorem firstWord?_plain {word rest : List Char} (nonempty : word ≠ [])
    (plain : word.head? ≠ some '"') (dark : ∀ c ∈ word, isBlank c = false) (ends : EndsWord rest) :
    firstWord? (word ++ rest) = some (word, rest) := by
  have solid : ∀ c ∈ word, (!isBlank c) = true := fun c mem => by simp [dark c mem]
  have stops : ∀ c ∈ rest.head?, (!isBlank c) = false := fun c mem => by simp [ends c mem]
  unfold firstWord?
  split
  · next text same =>
    cases word with
    | nil => exact absurd rfl nonempty
    | cons c word => cases same; exact absurd rfl plain
  · rw [takeWhile_run solid stops, dropWhile_run solid stops]

theorem firstWord?_string {body rest : List Char} (unquoted : '"' ∉ body) :
    firstWord? ('"' :: body ++ ['"'] ++ rest) = some ('"' :: body ++ ['"'], rest) := by
  have inside : ∀ c ∈ body, decide (c ≠ '"') = true := by
    intro c mem
    rw [decide_eq_true_eq]
    rintro rfl
    exact unquoted mem
  have stops : ∀ c ∈ ('"' :: rest).head?, decide (c ≠ '"') = false := by
    rintro c first
    cases first
    decide
  have shape : '"' :: body ++ ['"'] ++ rest = '"' :: (body ++ '"' :: rest) := by simp
  rw [shape]
  simp only [firstWord?, takeWhile_run inside stops, dropWhile_run inside stops]

theorem lexFrom_word {c : Char} {text word rest : List Char} (dark : isBlank c = false)
    (first : firstWord? (c :: text) = some (word, rest)) (start : Nat) :
    lexFrom start (c :: text) = (do
      let tokens ← wordTokens start word
      let others ← lexFrom (start + byteLength word) rest
      return tokens ++ others) := by
  rw [lexFrom, dif_pos dark]
  split
  · next same => rw [first] at same; cases same; rfl
  · next absent => rw [first] at absent; cases absent

theorem lexFrom_append {word rest : List Char} (nonempty : word ≠ [])
    (dark : ∀ c ∈ word.head?, isBlank c = false)
    (first : firstWord? (word ++ rest) = some (word, rest)) (start : Nat) :
    lexFrom start (word ++ rest) = (do
      let tokens ← wordTokens start word
      let others ← lexFrom (start + byteLength word) rest
      return tokens ++ others) := by
  cases word with
  | nil => exact absurd rfl nonempty
  | cons c word => exact lexFrom_word (dark c rfl) first start

theorem lexes_of_first {word : List Char} {tokens : Nat → List Token} (nonempty : word ≠ [])
    (dark : ∀ c ∈ word.head?, isBlank c = false)
    (first : ∀ rest, EndsWord rest → firstWord? (word ++ rest) = some (word, rest))
    (known : ∀ start, wordTokens start word = .ok (tokens start)) : Lexes word tokens := by
  intro start rest ends
  rw [lexFrom_append nonempty dark (first rest ends), known start]
  cases lexFrom (start + byteLength word) rest <;> rfl

theorem lexes_plain {word : List Char} {tokens : Nat → List Token} (nonempty : word ≠ [])
    (plain : word.head? ≠ some '"') (dark : ∀ c ∈ word, isBlank c = false)
    (known : ∀ start, wordTokens start word = .ok (tokens start)) : Lexes word tokens :=
  lexes_of_first nonempty (fun c first => dark c (List.mem_of_mem_head? first))
    (fun _ => firstWord?_plain nonempty plain dark) known

theorem lexes_string {body : List Char} (unquoted : '"' ∉ body) :
    Lexes ('"' :: body ++ ['"']) fun start => [stringToken body start] := by
  refine lexes_of_first (by simp) ?_ (fun _ _ => firstWord?_string unquoted)
    (wordTokens_string body)
  rintro c first
  cases first
  decide

theorem refuses_of_word {c : Char} {word : List Char} (plain : c ≠ '"')
    (dark : ∀ d ∈ c :: word, isBlank d = false)
    (refused : ∀ start, wordTokens start (c :: word) =
      .error (.lex (String.ofList (c :: word)) (Span.ofText start (c :: word)))) :
    Refuses c (c :: word) := by
  intro start rest ends
  have found : firstWord? (c :: word ++ rest) = some (c :: word, rest) :=
    firstWord?_plain (by simp) (by simpa using plain) dark ends
  rw [lexFrom_append (by simp) (fun d first => dark d (List.mem_of_mem_head? first)) found,
    refused start]
  exact ⟨word, _, rfl⟩

/-! ## Words with blanks between them -/

theorem lexFrom_blanks {gap : List Char} (blank : ∀ c ∈ gap, isBlank c = true) (start : Nat)
    (text : List Char) : lexFrom start (gap ++ text) = lexFrom (start + byteLength gap) text := by
  induction gap generalizing start with
  | nil => rfl
  | cons c gap ih =>
    have light : ¬ isBlank c = false := by simp [blank c List.mem_cons_self]
    rw [List.cons_append, lexFrom, dif_neg light,
      ih fun d mem => blank d (List.mem_cons_of_mem _ mem), byteLength_cons, Nat.add_assoc]

theorem endsWord_append {gap text : List Char} (nonempty : gap ≠ [])
    (blank : ∀ c ∈ gap, isBlank c = true) : EndsWord (gap ++ text) := by
  cases gap with
  | nil => exact absurd rfl nonempty
  | cons c gap =>
    rintro d first
    cases first
    exact blank c List.mem_cons_self

section Spaced

variable {c : Char} {left gap right : List Char} {leftTokens rightTokens : Nat → List Token}

theorem Lexes.spaced (leftLexes : Lexes left leftTokens) (rightLexes : Lexes right rightTokens)
    (nonempty : gap ≠ []) (blank : ∀ c ∈ gap, isBlank c = true) :
    Lexes (left ++ gap ++ right) fun start =>
      leftTokens start ++ rightTokens (start + byteLength left + byteLength gap) := by
  intro start rest ends
  rw [List.append_assoc, List.append_assoc, leftLexes start _ (endsWord_append nonempty blank),
    lexFrom_blanks blank, rightLexes _ rest ends]
  simp only [byteLength_append, ← Nat.add_assoc]
  cases lexFrom (start + byteLength left + byteLength gap + byteLength right) rest with
  | error cause => rfl
  | ok others => simp [Except.map]

theorem Refuses.spaced (leftRefuses : Refuses c left) (nonempty : gap ≠ [])
    (blank : ∀ c ∈ gap, isBlank c = true) : Refuses c (left ++ gap ++ right) := by
  intro start rest _
  rw [List.append_assoc, List.append_assoc]
  exact leftRefuses start _ (endsWord_append nonempty blank)

theorem Lexes.refuses (leftLexes : Lexes left leftTokens) (rightRefuses : Refuses c right)
    (nonempty : gap ≠ []) (blank : ∀ c ∈ gap, isBlank c = true) :
    Refuses c (left ++ gap ++ right) := by
  intro start rest ends
  obtain ⟨word, span, refused⟩ :=
    rightRefuses (start + byteLength left + byteLength gap) rest ends
  refine ⟨word, span, ?_⟩
  rw [List.append_assoc, List.append_assoc, leftLexes start _ (endsWord_append nonempty blank),
    lexFrom_blanks blank, refused]
  rfl

end Spaced

/-! ## Assignments -/

theorem head_braced {r : Reference} (formed : r.WellFormed) (braced : r.isBraced = true) :
    ∃ letter rest, isBlank letter = false ∧ r.spelling = '\x7b' :: letter :: rest := by
  obtain ⟨opening, letters, gap, row, closing⟩ := r
  cases letters with
  | nil => exact absurd rfl formed.letters_ne
  | cons letter letters =>
    have dark := isBlank_of_isUpper (formed.letters letter List.mem_cons_self)
    simp only [Reference.isBraced, decide_eq_true_eq] at braced
    obtain ⟨rfl, _⟩ := braced
    exact ⟨letter, _, dark, rfl⟩

/-- The word at the front of an assignment is no reference, for a square bracket follows that. -/
theorem isReference_front {r : Reference} {rest : List Char} (formed : r.WellFormed) :
    isReference ((r.spelling ++ '[' :: rest).takeWhile (!isBlank ·)) = false := by
  rw [Bool.eq_false_iff]
  intro reference
  unfold isReference at reference
  split at reference
  · next other found =>
    obtain ⟨otherFormed, spelt⟩ := Reference.read?_eq_some_iff.1 found
    have whole :=
      List.takeWhile_append_dropWhile (p := (!isBlank ·)) (l := r.spelling ++ '[' :: rest)
    rw [spelt, List.append_nil] at whole
    have again := Reference.read?_spelling otherFormed
      ((r.spelling ++ '[' :: rest).dropWhile (!isBlank ·))
    rw [whole, Reference.read?_spelling formed] at again
    simp only [Option.some.injEq, Prod.mk.injEq] at again
    exact absurd (of_head_dropWhile again.2.symm) (by decide)
  · cases reference

/-- A text that has the form of an assignment cannot be read as words. -/
theorem lexFrom_assignment {text : List Char} {target : Reference} {body : List Char}
    (found : assignment? text = some (target, body)) (start : Nat) :
    ∃ word span, lexFrom start text = .error (.lex (String.ofList ('\x7b' :: word)) span) := by
  unfold assignment? at found
  split at found
  · next r rest read =>
    obtain ⟨formed, spelt⟩ := Reference.read?_eq_some_iff.1 read
    split at found
    · next form =>
      obtain ⟨letter, tail, dark, shape⟩ := head_braced formed form.1
      have unread : isReference ((r.spelling ++ '[' :: rest).takeWhile (!isBlank ·)) = false :=
        isReference_front formed
      have whole := List.takeWhile_append_dropWhile (p := isBlank) (l := text)
      rw [spelt] at whole
      rw [← whole, lexFrom_blanks fun c => of_mem_takeWhile]
      rw [shape, List.cons_append, List.cons_append, List.takeWhile_cons_of_pos (by decide),
        List.takeWhile_cons_of_pos (by simp [dark])] at unread
      rw [shape, List.cons_append, List.cons_append]
      have first : firstWord? ('\x7b' :: letter :: (tail ++ '[' :: rest)) =
          some ('\x7b' :: letter :: (tail ++ '[' :: rest).takeWhile (!isBlank ·),
            (tail ++ '[' :: rest).dropWhile (!isBlank ·)) := by
        have braceDark : isBlank '\x7b' = false := by decide
        simp [firstWord?, dark, braceDark]
      rw [lexFrom_word (by decide) first, wordTokens_bracket (Or.inl rfl) unread]
      exact ⟨_, _, rfl⟩
    · cases found
  · cases found

/-- A text that can be read as words is no assignment. -/
theorem assignment?_eq_none {text : List Char} {tokens : List Token} {start : Nat}
    (lexed : lexFrom start text = .ok tokens) : assignment? text = none := by
  cases found : assignment? text with
  | none => rfl
  | some parts =>
    obtain ⟨word, span, refused⟩ := lexFrom_assignment found start
    rw [refused] at lexed
    cases lexed

theorem lex_of_lexFrom {formula : String} {tokens : List Token}
    (lexed : lexFrom 0 formula.toList = .ok tokens) : lex formula = .ok tokens := by
  simp only [lex, assignment?_eq_none lexed, lexed]

/-- A text that lexes has its tokens as a formula, for it is no assignment. -/
theorem lex_eq {formula : String} {tokens : Nat → List Token}
    (lexes : Lexes formula.toList tokens) : lex formula = .ok (tokens 0) := by
  have all := lexes 0 [] nofun
  rw [List.append_nil, lexFrom] at all
  exact lex_of_lexFrom (all.trans (congrArg Except.ok (List.append_nil _)))

theorem lex_of_refuses {formula : String} {c : Char} (refuses : Refuses c formula.toList)
    (other : c ≠ '\x7b') : ∃ word span, lex formula = .error (.lex word span) := by
  obtain ⟨word, span, refused⟩ := refuses 0 [] nofun
  rw [List.append_nil] at refused
  have noAssignment : assignment? formula.toList = none := by
    cases found : assignment? formula.toList with
    | none => rfl
    | some parts =>
      obtain ⟨front, place, braced⟩ := lexFrom_assignment found 0
      rw [refused] at braced
      simp only [Except.error.injEq, FormulaError.lex.injEq, String.ofList_inj,
        List.cons.injEq] at braced
      exact absurd braced.1.1 other
  refine ⟨String.ofList (c :: word), span, ?_⟩
  simp only [lex, noAssignment, refused]

end CellFormula
