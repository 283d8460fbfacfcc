import CellFormula.Address.Reference
import CellFormula.Error
import CellFormula.Text.Front

/-!
# From text to tokens

A text of the form `{A,1}[body]` is one assignment token, whatever the body holds. Any other text is
cut into words at blanks, except that a word that begins with a quote goes on to the next quote.
A word is then a token, or a unary operator with the rest of the word behind it: `!!True` is three
tokens.
-/

namespace CellFormula

/-- Whether the text is one or more digits. -/
def isNumeral (text : List Char) : Bool :=
  text ≠ [] ∧ text.all Char.isDigit

/-- Whether the text is digits, a point and digits. -/
def isFraction (text : List Char) : Bool :=
  match text.dropWhile Char.isDigit with
  | '.' :: fraction => text.takeWhile Char.isDigit ≠ [] ∧ isNumeral fraction
  | _ => false

/-- Whether the text is a reference in braces without blanks. -/
def isReference (text : List Char) : Bool :=
  match Reference.read? text with
  | some (r, []) => r.isBraced ∧ r.gap = []
  | _ => false

/-- What stands between a quote at the beginning of the text and one at its end. -/
def quoted? : List Char → Option (List Char)
  | '"' :: rest => if rest.getLast? = some '"' then some rest.dropLast else none
  | _ => none

/-- The kinds whose tokens are always spelt alike, unary operators apart. -/
def TokenKind.fixed : List TokenKind :=
  [.leftParen, .rightParen] ++ Aggregate.all.map .aggregate ++ BinaryOp.all.map .binary

/-- How tokens of a fixed kind are spelt. -/
def TokenKind.spelling? : TokenKind → Option String
  | .leftParen => some "("
  | .rightParen => some ")"
  | .unary op => some op.symbol
  | .aggregate fn => some fn.name
  | .binary op => some op.symbol
  | _ => none

/-- The kind of a word that is a token as it stands, strings apart. -/
def wordKind? (word : List Char) : Option TokenKind :=
  if isReference word then some .reference
  else if isNumeral word then some .integer
  else if isFraction word then some .float
  else if word = "True".toList ∨ word = "False".toList then some .boolean
  else TokenKind.fixed.find? fun kind => kind.spelling? = some (String.ofList word)

/-- The token that a word at byte `start` is as it stands. -/
def wordToken? (start : Nat) (word : List Char) : Option Token :=
  match quoted? word with
  | some body => some ⟨.string, String.ofList body, Span.ofText start word, none⟩
  | none =>
    (wordKind? word).map fun kind => ⟨kind, String.ofList word, Span.ofText start word, none⟩

/-- The token of a unary operator at byte `start`. -/
def unaryToken (start : Nat) (op : UnaryOp) : Token :=
  ⟨.unary op, op.symbol, Span.ofText start op.symbol.toList, none⟩

/-- Splits off the unary operator at the front of a word. -/
def peel? (word : List Char) : Option (UnaryOp × List Char) :=
  UnaryOp.all.findSome? fun op => (stripFront? op.symbol.toList word).map fun rest => (op, rest)

theorem eq_append_of_peel? {word rest : List Char} {op : UnaryOp}
    (peeled : peel? word = some (op, rest)) : word = op.symbol.toList ++ rest := by
  obtain ⟨other, _, found⟩ := List.exists_of_findSome?_eq_some peeled
  obtain ⟨tail, front, equal⟩ := Option.map_eq_some_iff.1 found
  cases equal
  exact stripFront?_eq_some_iff.1 front

theorem length_lt_of_peel? {word rest : List Char} {op : UnaryOp}
    (peeled : peel? word = some (op, rest)) : rest.length < word.length := by
  have : 0 < op.symbol.toList.length := by cases op <;> decide
  rw [eq_append_of_peel? peeled, List.length_append]
  omega

/-- The tokens of a word at byte `start`. -/
def wordTokens (start : Nat) (word : List Char) : Except FormulaError (List Token) :=
  match wordToken? start word with
  | some token => .ok [token]
  | none =>
    match _peeled : peel? word with
    | some (op, []) => .ok [unaryToken start op]
    | some (op, c :: rest) => do
      let tokens ← wordTokens (start + byteLength op.symbol.toList) (c :: rest)
      return unaryToken start op :: tokens
    | none => .error (.lex (String.ofList word) (Span.ofText start word))
termination_by word.length
decreasing_by exact length_lt_of_peel? _peeled

/-- The word at the front of a text and the text behind it. There is none if the text begins with
a quote and holds no other. -/
def firstWord? : List Char → Option (List Char × List Char)
  | '"' :: text =>
    match text.dropWhile (· ≠ '"') with
    | close :: rest => some ('"' :: text.takeWhile (· ≠ '"') ++ [close], rest)
    | [] => none
  | text => some (text.takeWhile (!isBlank ·), text.dropWhile (!isBlank ·))

theorem length_dropWhile_le (p : Char → Bool) (text : List Char) :
    (text.dropWhile p).length ≤ text.length :=
  (List.dropWhile_suffix p).length_le

theorem length_lt_of_firstWord? {c : Char} {text word rest : List Char} (dark : isBlank c = false)
    (first : firstWord? (c :: text) = some (word, rest)) : rest.length < (c :: text).length := by
  unfold firstWord? at first
  split at first
  · next equal =>
    cases equal
    have := length_dropWhile_le (· ≠ '"') text
    split at first
    · next close tail dropped =>
      cases first
      rw [dropped, List.length_cons] at this
      rw [List.length_cons]
      omega
    · cases first
  · cases first
    have := length_dropWhile_le (!isBlank ·) text
    rw [List.dropWhile_cons_of_pos (by simp [dark]), List.length_cons]
    omega

/-- The tokens of a text at byte `start` that is no assignment. -/
def lexFrom (start : Nat) : List Char → Except FormulaError (List Token)
  | [] => .ok []
  | c :: text =>
    if _dark : isBlank c = false then
      match _first : firstWord? (c :: text) with
      | some (word, rest) => do
        let tokens ← wordTokens start word
        let others ← lexFrom (start + byteLength word) rest
        return tokens ++ others
      | none => .error (.lex (String.ofList (c :: text)) (Span.ofText start (c :: text)))
    else lexFrom (start + c.utf8Size) text
termination_by text => text.length
decreasing_by
  · exact length_lt_of_firstWord? _dark _first
  · exact Nat.lt_succ_self _

/-- The target and the body of a text that has the form of an assignment: blanks, a reference in
braces, the body in square brackets, blanks. -/
def assignment? (text : List Char) : Option (Reference × List Char) :=
  match Reference.read? (text.dropWhile isBlank) with
  | some (target, '[' :: rest) =>
    if target.isBraced ∧ (trimEnd rest).getLast? = some ']' then
      some (target, (trimEnd rest).dropLast)
    else none
  | _ => none

/-- The token of an assignment whose target begins at byte `start`. -/
def assignmentToken (start : Nat) (target : Reference) (body : List Char) :
    Except AddressError Token := do
  let address ← target.address
  let bodyStart := start + byteLength target.spelling + 1
  return ⟨.assignment, String.ofList body, Span.ofText bodyStart body, some address⟩

/-- The tokens of a formula. -/
def lex (formula : String) : Except FormulaError (List Token) :=
  let text := formula.toList
  match assignment? text with
  | some (target, body) =>
    match assignmentToken (byteLength (text.takeWhile isBlank)) target body with
    | .ok token => .ok [token]
    | .error cause => .error (.coordinates (.malformed cause))
  | none => lexFrom 0 text

end CellFormula
