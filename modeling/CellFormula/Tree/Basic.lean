import CellFormula.Token.Basic

/-!
# Trees

A parsed formula. Each node keeps the kind of the token that it was built from, and leaves keep
their source: a literal is read only when it is evaluated.
-/

namespace CellFormula

/-- A formula as a tree. A range function is a binary node over the corners of its range. -/
inductive Tree where
  | leaf (kind : TokenKind) (source : String)
  | unary (kind : TokenKind) (operand : Tree)
  | binary (kind : TokenKind) (left right : Tree)
deriving DecidableEq, Repr

namespace Tree

/-- The kind of the root. -/
def kind : Tree → TokenKind
  | leaf kind _ | unary kind _ | binary kind _ _ => kind

/-- The tree as messages show it. -/
def text : Tree → String
  | leaf kind source => kind.name ++ "(" ++ source ++ ")"
  | unary kind operand => kind.name ++ "(" ++ operand.text ++ ")"
  | binary kind left right => kind.name ++ "(" ++ left.text ++ ", " ++ right.text ++ ")"

end Tree

end CellFormula
