import CellFormula.Tree.Basic

/-!
# The grammar of formulas

`Derives` is the grammar, with two nonterminals: an operand, and a group of operands with binary
operators between them, of which the last may be a unary operator with a whole group behind it.
`IsTreeOf` says which tree a derivable token list stands for. It speaks of positions in the token
list only: the root of a group is the rightmost of the loosest operators that stand in the group
itself, outside its parentheses and before its first unary operator. Which operators are looser is
written out in `BinaryOp.precedence`, apart from the table that the parser goes by. `Tree.words` are
the tokens that a tree keeps.

Main statement: `BinaryOp.level_eq_rank`, the parser's levels are the groups of this table.
-/

namespace CellFormula

/-- What a stretch of tokens can be in a formula. -/
inductive Phrase where
  | operand | group

/-- The grammar of formulas. -/
inductive Derives : Phrase → List Token → Prop
  | atom {token : Token} (atom : token.kind.isAtom = true) : Derives .operand [token]
  | parens {opening closing : Token} {inner : List Token} (opens : opening.kind = .leftParen)
      (closes : closing.kind = .rightParen) (group : Derives .group inner) :
      Derives .operand (opening :: inner ++ [closing])
  | range {name start stop : Token} {fn : Aggregate} (named : name.kind = .aggregate fn)
      (starts : start.kind = .reference) (stops : stop.kind = .reference) :
      Derives .operand [name, start, stop]
  | operand {tokens : List Token} (operand : Derives .operand tokens) : Derives .group tokens
  | unary {marker : Token} {inner : List Token} {op : UnaryOp} (marked : marker.kind = .unary op)
      (group : Derives .group inner) : Derives .group (marker :: inner)
  | link {first others : List Token} {sign : Token} {op : BinaryOp}
      (operand : Derives .operand first) (signed : sign.kind = .binary op)
      (group : Derives .group others) : Derives .group (first ++ sign :: others)

/-! ## Precedence -/

namespace BinaryOp

/-- The binary operators in groups of equal precedence, from the loosest group to the tightest. -/
def precedence : List (List BinaryOp) :=
  [[or],
   [and],
   [equal, notEqual],
   [lessThan, lessEqual, greaterThan, greaterEqual],
   [bitOr],
   [bitXor],
   [bitAnd],
   [shiftLeft, shiftRight],
   [add, subtract],
   [multiply, divide, modulo],
   [exponent]]

/-- How many groups are looser than that of the operator. -/
def rank (op : BinaryOp) : Nat := precedence.findIdx fun group => op ∈ group

/-- The parser has one level for each group, in the same order. -/
theorem level_eq_rank (op : BinaryOp) : op.level = op.rank := by
  cases op <;> decide

end BinaryOp

/-! ## Trees -/

/-- The binary operators of a group that stand outside all parentheses and before the first unary
operator outside all parentheses, `depth` parentheses being open. -/
def ownOperators (depth : Nat) : List Token → List BinaryOp
  | [] => []
  | token :: rest =>
    match token.kind with
    | .leftParen => ownOperators (depth + 1) rest
    | .rightParen => ownOperators (depth - 1) rest
    | .unary _ => if depth = 0 then [] else ownOperators depth rest
    | .binary op => if depth = 0 then op :: ownOperators depth rest else ownOperators depth rest
    | _ => ownOperators depth rest

/-- The operator between `left` and `right` is the root of their group: it is one of the group's own
operators, none of those is looser, and those to its right bind more tightly. -/
structure IsRoot (left : List Token) (sign : Token) (op : BinaryOp) (right : List Token) :
    Prop where
  signed : sign.kind = .binary op
  own : ownOperators 0 (left ++ sign :: right) = ownOperators 0 left ++ op :: ownOperators 0 right
  loosest : ∀ other ∈ ownOperators 0 left, op.rank ≤ other.rank
  rightmost : ∀ other ∈ ownOperators 0 right, op.rank < other.rank

/-- The tree that a token list stands for. -/
inductive IsTreeOf : List Token → Tree → Prop
  | atom {token : Token} (atom : token.kind.isAtom = true) :
      IsTreeOf [token] (.leaf token.kind token.source)
  | parens {opening closing : Token} {inner : List Token} {tree : Tree}
      (opens : opening.kind = .leftParen) (closes : closing.kind = .rightParen)
      (group : IsTreeOf inner tree) : IsTreeOf (opening :: inner ++ [closing]) tree
  | range {name start stop : Token} {fn : Aggregate} (named : name.kind = .aggregate fn)
      (starts : start.kind = .reference) (stops : stop.kind = .reference) :
      IsTreeOf [name, start, stop]
        (.binary name.kind (.leaf .reference start.source) (.leaf .reference stop.source))
  | unary {marker : Token} {inner : List Token} {op : UnaryOp} {tree : Tree}
      (marked : marker.kind = .unary op) (group : IsTreeOf inner tree) :
      IsTreeOf (marker :: inner) (.unary marker.kind tree)
  | binary {left right : List Token} {sign : Token} {op : BinaryOp} {leftTree rightTree : Tree}
      (root : IsRoot left sign op right) (leftGroup : IsTreeOf left leftTree)
      (rightGroup : IsTreeOf right rightTree) :
      IsTreeOf (left ++ sign :: right) (.binary sign.kind leftTree rightTree)

/-- A token as it is found in a tree: operators keep no source. -/
def Token.word (token : Token) : TokenKind × Option String :=
  (token.kind, if token.kind.isAtom then some token.source else none)

/-- Whether the token is a parenthesis. -/
def Token.isParen (token : Token) : Bool :=
  token.kind = .leftParen ∨ token.kind = .rightParen

/-- The tokens that a tree was made of, without parentheses, in the order of the formula. -/
def Tree.words : Tree → List (TokenKind × Option String)
  | .leaf kind source => [(kind, some source)]
  | .unary kind operand => (kind, none) :: operand.words
  | .binary (.aggregate fn) start stop => (.aggregate fn, none) :: start.words ++ stop.words
  | .binary kind left right => left.words ++ (kind, none) :: right.words

end CellFormula
