import CellFormula.Token.Lexer

/-!
# From tokens to trees

There is a reader for each level of binary operators. It reads with the reader of the next tighter
level, and goes on to the right as long as an operator of its own level follows, so that operators
of one level group to the left. Below the tightest level are the operands: a literal or a reference,
a formula in parentheses, a range function with its two corners, or a unary operator, which applies
to all that the reader of the loosest level finds behind it. A formula leaves no token over.
-/

namespace CellFormula

/-- What was read at the front of some tokens, and the tokens behind it, which are fewer. -/
structure Parsed (α : Type) (tokens : List Token) where
  value : α
  rest : List Token
  shorter : rest.length < tokens.length

/-- Reads a corner of a range. -/
def readCorner : (tokens : List Token) → Except ParseError (Parsed Tree tokens)
  | [] => .error (.noCorner none)
  | token :: rest =>
    if token.kind = .reference then
      .ok ⟨.leaf .reference token.source, rest, Nat.lt_succ_self _⟩
    else .error (.noCorner (some token))

mutual

/-- Reads an operand. -/
def readOperand : (tokens : List Token) → Except ParseError (Parsed Tree tokens)
  | [] => .error .unfinished
  | token :: rest =>
    match token.kind with
    | .reference | .integer | .float | .boolean | .string =>
      .ok ⟨.leaf token.kind token.source, rest, Nat.lt_succ_self _⟩
    | .leftParen => do
      let inner ← readLevel 0 rest
      match _closing : inner.rest with
      | [] => .error (.unclosed none)
      | close :: behind =>
        if close.kind = .rightParen then
          .ok ⟨inner.value, behind, by
            have := inner.shorter
            simp only [_closing, List.length_cons] at *
            omega⟩
        else .error (.unclosed (some close))
    | .aggregate _ => do
      let start ← readCorner rest
      let stop ← readCorner start.rest
      .ok ⟨.binary token.kind start.value stop.value, stop.rest, by
        have := start.shorter
        have := stop.shorter
        simp only [List.length_cons]
        omega⟩
    | .unary _ => do
      let operand ← readLevel 0 rest
      .ok ⟨.unary token.kind operand.value, operand.rest, by
        have := operand.shorter
        simp only [List.length_cons]
        omega⟩
    | .assignment => .error .nestedAssignment
    | .rightParen | .binary _ => .error (.noOperand token)
termination_by tokens => (tokens.length, 0)

/-- Reads operands that are linked by operators of this level and tighter ones. -/
def readLevel (level : Nat) (tokens : List Token) : Except ParseError (Parsed Tree tokens) :=
  if level < BinaryOp.levels then do
    let left ← readLevel (level + 1) tokens
    readLinks level left
  else readOperand tokens
termination_by (tokens.length, BinaryOp.levels - level + 1)
decreasing_by
  · exact Prod.Lex.right _ (by omega)
  · exact Prod.Lex.left _ _ left.shorter
  · exact Prod.Lex.right _ (by omega)

/-- Goes on to the right as long as an operator of this level follows. -/
def readLinks (level : Nat) {tokens : List Token} (left : Parsed Tree tokens) :
    Except ParseError (Parsed Tree tokens) :=
  match _following : left.rest with
  | [] => .ok left
  | next :: behind =>
    match next.kind with
    | .binary op =>
      if op.level = level then do
        let right ← readLevel (level + 1) behind
        readLinks level ⟨.binary (.binary op) left.value right.value, right.rest, by
          have := left.shorter
          have := right.shorter
          simp only [_following, List.length_cons] at *
          omega⟩
      else .ok left
    | _ => .ok left
termination_by (left.rest.length, 0)
decreasing_by
  · simp only [_following, List.length_cons]
    exact Prod.Lex.left _ _ (by omega)
  · have := right.shorter
    simp only [_following, List.length_cons]
    exact Prod.Lex.left _ _ (by omega)

end

/-- The tree of a token list, all of which it must use up. -/
def parse (tokens : List Token) : Except ParseError Tree := do
  let whole ← readLevel 0 tokens
  match whole.rest with
  | [] => .ok whole.value
  | token :: _ => .error (.leftover token)

namespace Tree

/-- The tree of a formula given as tokens. -/
def ofTokens (tokens : List Token) : Except FormulaError Tree :=
  (parse tokens).mapError .parse

/-- The tree of a formula given as text. -/
def ofText (formula : String) : Except FormulaError Tree := do
  ofTokens (← lex formula)

end Tree

end CellFormula
