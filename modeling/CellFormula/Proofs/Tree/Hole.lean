import CellFormula.Proofs.Text.Run
import CellFormula.Proofs.Tree.Chain

/-!
# Trees with a hole

A hole stands for one operand of the operators around it. So does an atom in a token list, unless it
is a corner of a range: where it stands a longer operand may stand as well, such as a formula in
parentheses, and what is around it is parsed as before.

Main statement: `IsTreeOf.exists_hole`, a token list around an atom stands for a tree with a hole,
which is filled with the tree of the operand that takes the place of the atom.
-/

namespace CellFormula

/-- A tree in which an operand is left out. -/
inductive Hole where
  | here
  | unary (op : UnaryOp) (operand : Hole)
  | onLeft (op : BinaryOp) (left : Hole) (right : Tree)
  | onRight (op : BinaryOp) (left : Tree) (right : Hole)

namespace Hole

/-- The tree with this operand in the hole. -/
def fill (part : Tree) : Hole → Tree
  | here => part
  | unary op operand => .unary (.unary op) (operand.fill part)
  | onLeft op hole other => .binary (.binary op) (hole.fill part) other
  | onRight op other hole => .binary (.binary op) other (hole.fill part)

end Hole

/-! ## Operands in a group -/

/-- One of the last two tokens names a range function, so what follows is a corner of the range. -/
def CornerDue (tokens : List Token) : Prop :=
  ∃ name ∈ tokens.reverse.take 2, ∃ fn, name.kind = .aggregate fn

theorem CornerDue.append_left {tokens : List Token} (due : CornerDue tokens) (front : List Token) :
    CornerDue (front ++ tokens) := by
  obtain ⟨name, mem, fn, named⟩ := due
  refine ⟨name, ?_, fn, named⟩
  rw [List.reverse_append, List.take_append]
  exact List.mem_append_left _ mem

theorem ownOperators_append_congr {tokens others : List Token}
    (same : ∀ depth, ownOperators depth tokens = ownOperators depth others) (front : List Token)
    (depth : Nat) :
    ownOperators depth (front ++ tokens) = ownOperators depth (front ++ others) := by
  induction front generalizing depth with
  | nil => exact same depth
  | cons token front ih =>
    rw [List.cons_append, List.cons_append, ownOperators, ownOperators]
    simp only [ih]

section Operands

variable {part : List Token} {token : Token}

/-- No operator of an operand is one of the group around it. -/
theorem ChainOf.ownOperators_skip {chain : Chain} (operand : ChainOf .operand part chain)
    (depth : Nat) (rest : List Token) :
    ownOperators depth (part ++ rest) = ownOperators depth rest := by
  cases depth with
  | zero => exact operand.ownOperators_operand rest rfl
  | succ depth => exact operand.ownOperators_inner depth rest

/-- An operand in the place of an atom leaves the operators of the group as they are. -/
theorem ChainOf.ownOperators_replace {chain : Chain} (operand : ChainOf .operand part chain)
    (atom : token.kind.isAtom = true) (left right : List Token) (depth : Nat) :
    ownOperators depth (left ++ part ++ right) = ownOperators depth (left ++ token :: right) := by
  rw [List.append_assoc]
  refine ownOperators_append_congr (fun depth => ?_) left depth
  rw [operand.ownOperators_skip]
  exact ((ChainOf.atom atom).ownOperators_skip depth right).symm

/-- A root stays one when its left side changes in other things than its operators. -/
theorem IsRoot.replace_left {left other right : List Token} {sign : Token} {op : BinaryOp}
    (root : IsRoot left sign op right)
    (same : ∀ rest, ownOperators 0 (other ++ rest) = ownOperators 0 (left ++ rest)) :
    IsRoot other sign op right := by
  have alone : ownOperators 0 other = ownOperators 0 left := by simpa using same []
  refine ⟨root.signed, ?_, ?_, root.rightmost⟩
  · rw [same, alone, root.own]
  · rw [alone]
    exact root.loosest

/-- A root stays one when its right side changes in other things than its operators. -/
theorem IsRoot.replace_right {left other right : List Token} {sign : Token} {op : BinaryOp}
    (root : IsRoot left sign op right)
    (same : ∀ depth, ownOperators depth other = ownOperators depth right) :
    IsRoot left sign op other := by
  refine ⟨root.signed, ?_, root.loosest, ?_⟩
  · rw [same 0, ← root.own, ← List.singleton_append, ← List.append_assoc,
      ownOperators_append_congr same, List.append_assoc, List.singleton_append]
  · rw [same 0]
    exact root.rightmost

end Operands

/-! ## Holes in a token list -/

/-- With any operand between them, the tokens stand for the tree with that operand in the hole. -/
def Hole.IsBetween (hole : Hole) (left right : List Token) : Prop :=
  ∀ part inner, ChainOf .operand part ⟨inner, []⟩ →
    IsTreeOf (left ++ part ++ right) (hole.fill inner)

namespace Hole.IsBetween

variable {hole : Hole} {left right tokens : List Token} {token sign : Token} {tree : Tree}

theorem here : Hole.here.IsBetween [] [] := by
  intro part inner operand
  have stands := (ChainOf.operand operand).isTreeOf
  rw [Chain.assemble_single] at stands
  rwa [List.nil_append, List.append_nil]

theorem parens {opening closing : Token} (between : hole.IsBetween left right)
    (opens : opening.kind = .leftParen) (closes : closing.kind = .rightParen) :
    hole.IsBetween (opening :: left) (right ++ [closing]) := by
  intro part inner operand
  simpa using IsTreeOf.parens opens closes (between part inner operand)

theorem unary {marker : Token} {op : UnaryOp} (between : hole.IsBetween left right)
    (marked : marker.kind = .unary op) : (Hole.unary op hole).IsBetween (marker :: left) right := by
  intro part inner operand
  have stands := IsTreeOf.unary marked (between part inner operand)
  rwa [marked] at stands

theorem onLeft {op : BinaryOp} (between : hole.IsBetween left right)
    (root : IsRoot (left ++ token :: right) sign op tokens) (atom : token.kind.isAtom = true)
    (group : IsTreeOf tokens tree) :
    (Hole.onLeft op hole tree).IsBetween left (right ++ sign :: tokens) := by
  intro part inner operand
  have replaced : IsRoot (left ++ part ++ right) sign op tokens := root.replace_left fun rest => by
    rw [List.append_assoc, operand.ownOperators_replace atom, List.append_assoc, List.cons_append]
  have stands := IsTreeOf.binary replaced (between part inner operand) group
  rwa [root.signed, List.append_assoc] at stands

theorem onRight {op : BinaryOp} (between : hole.IsBetween left right)
    (root : IsRoot tokens sign op (left ++ token :: right)) (atom : token.kind.isAtom = true)
    (group : IsTreeOf tokens tree) :
    (Hole.onRight op tree hole).IsBetween (tokens ++ sign :: left) right := by
  intro part inner operand
  have replaced : IsRoot tokens sign op (left ++ part ++ right) :=
    root.replace_right (operand.ownOperators_replace atom left right)
  have stands := IsTreeOf.binary replaced group (between part inner operand)
  rw [root.signed] at stands
  simpa [fill] using stands

end Hole.IsBetween

/-- A token list around an atom stands for a tree with a hole, which is filled with the tree of the
operand that takes the place of the atom. -/
theorem IsTreeOf.exists_hole {left right : List Token} {token : Token} {tree : Tree}
    (stands : IsTreeOf (left ++ token :: right) tree) (atom : token.kind.isAtom = true)
    (free : ¬ CornerDue left) :
    ∃ hole : Hole,
      tree = hole.fill (.leaf token.kind token.source) ∧ hole.IsBetween left right := by
  generalize whole : left ++ token :: right = tokens at stands
  induction stands generalizing left right with
  | atom _ =>
    cases left with
    | nil =>
      cases whole
      exact ⟨.here, rfl, .here⟩
    | cons _ _ => simp at whole
  | @parens opening closing tokens tree opens closes _ ih =>
    cases left with
    | nil =>
      cases whole
      simp [opens, TokenKind.isAtom] at atom
    | cons first left =>
      rw [List.cons_append, List.cons_append, List.cons.injEq] at whole
      obtain ⟨rfl, whole⟩ := whole
      rcases inside_or_behind whole.symm with ⟨between, rfl, rfl⟩ | ⟨between, -, last⟩
      · have below : ¬ CornerDue left := fun due => free (due.append_left [first])
        obtain ⟨hole, filled, between⟩ := ih below rfl
        exact ⟨hole, filled, between.parens opens closes⟩
      · cases between with
        | nil =>
          cases last
          simp [closes, TokenKind.isAtom] at atom
        | cons _ _ => simp at last
  | @range name start stop fn named _ _ =>
    -- the atom is a corner, for it is not the name
    refine absurd ?_ free
    rcases left with _ | ⟨first, _ | ⟨second, _ | ⟨third, rest⟩⟩⟩
    · cases whole
      simp [named, TokenKind.isAtom] at atom
    · cases whole
      exact ⟨name, by simp, fn, named⟩
    · cases whole
      exact ⟨name, by simp, fn, named⟩
    · simp at whole
  | @unary marker tokens op tree marked _ ih =>
    cases left with
    | nil =>
      cases whole
      simp [marked, TokenKind.isAtom] at atom
    | cons first left =>
      rw [List.cons_append, List.cons.injEq] at whole
      obtain ⟨rfl, whole⟩ := whole
      have below : ¬ CornerDue left := fun due => free (due.append_left [first])
      obtain ⟨hole, rfl, between⟩ := ih below whole
      rw [marked]
      exact ⟨.unary op hole, rfl, between.unary marked⟩
  | @binary leftTokens rightTokens sign op leftTree rightTree root leftGroup rightGroup ihLeft
      ihRight =>
    rw [root.signed]
    rcases inside_or_behind whole.symm with ⟨between, rfl, rfl⟩ | ⟨between, rfl, behind⟩
    · obtain ⟨hole, rfl, between⟩ := ihLeft free rfl
      exact ⟨.onLeft op hole rightTree, rfl, between.onLeft root atom rightGroup⟩
    · cases between with
      | nil =>
        cases behind
        simp [root.signed, TokenKind.isAtom] at atom
      | cons next between =>
        rw [List.cons_append, List.cons.injEq] at behind
        obtain ⟨rfl, rfl⟩ := behind
        have below : ¬ CornerDue between := by
          intro due
          refine free ?_
          rw [← List.singleton_append, ← List.append_assoc]
          exact due.append_left _
        obtain ⟨hole, rfl, between⟩ := ihRight below rfl
        exact ⟨.onRight op leftTree hole, rfl, between.onRight root atom leftGroup⟩

end CellFormula
