import CellFormula.Proofs.Tree.Grammar

/-!
# Chains

A chain is operands with binary operators between them, before it is settled what belongs to what.
It is cut at its loosest operator, and of several equally loose ones at the rightmost, and the
chains on both sides are assembled likewise. `ChainOf` is the grammar once more, with the chain of a
group: the middle between the parser and `IsTreeOf`, which speaks of token lists only.

Main statements: `Chain.loosest?_eq_some_iff`, what the cut of a chain is; `Chain.assemble_append`,
chains linked by an operator as loose as any; `isTreeOf_iff`, a token list stands for the trees that
its chains assemble to.
-/

namespace CellFormula

/-! ## The cut of a chain -/

/-- An operand with the operators and operands that follow it. -/
structure Chain where
  first : Tree
  rest : List (BinaryOp × Tree)
deriving DecidableEq, Repr

/-- A place in a chain: an operator with its right operand, and what stands on either side. -/
structure Cut where
  before : List (BinaryOp × Tree)
  op : BinaryOp
  operand : Tree
  after : List (BinaryOp × Tree)
deriving DecidableEq, Repr

namespace Chain

/-- The rightmost of the loosest operators. -/
def loosest? : List (BinaryOp × Tree) → Option Cut
  | [] => none
  | (op, operand) :: rest =>
    match loosest? rest with
    | none => some ⟨[], op, operand, rest⟩
    | some cut =>
      if op.level < cut.op.level then some ⟨[], op, operand, rest⟩
      else some { cut with before := (op, operand) :: cut.before }

/-- A cut takes nothing away and changes no order. -/
theorem eq_of_loosest? {rest : List (BinaryOp × Tree)} {cut : Cut}
    (found : loosest? rest = some cut) :
    rest = cut.before ++ (cut.op, cut.operand) :: cut.after := by
  induction rest generalizing cut with
  | nil => cases found
  | cons head tail ih =>
    unfold loosest? at found
    split at found
    · cases found
      rfl
    · next inner same =>
      split at found
      · cases found
        rfl
      · cases found
        simp [ih same]

/-- The tree of an operand and what follows it. -/
def assembleFrom (first : Tree) (rest : List (BinaryOp × Tree)) : Tree :=
  match _found : loosest? rest with
  | none => first
  | some cut =>
    .binary (.binary cut.op) (assembleFrom first cut.before) (assembleFrom cut.operand cut.after)
termination_by rest.length
decreasing_by
  all_goals
    have := congrArg List.length (eq_of_loosest? _found)
    simp only [List.length_append, List.length_cons] at this
    omega

/-- The tree of a chain. -/
def assemble (chain : Chain) : Tree := assembleFrom chain.first chain.rest

/-- Two chains with an operator between them. -/
def append (left : Chain) (op : BinaryOp) (right : Chain) : Chain :=
  ⟨left.first, left.rest ++ (op, right.first) :: right.rest⟩

theorem append_append (first : Chain) (op : BinaryOp) (second : Chain) (sign : BinaryOp)
    (third : Chain) :
    (first.append op second).append sign third = first.append op (second.append sign third) := by
  simp only [append, List.append_assoc, List.cons_append]
theorem loosest?_eq_none_iff {rest : List (BinaryOp × Tree)} :
    loosest? rest = none ↔ rest = [] := by
  cases rest with
  | nil => exact ⟨fun _ => rfl, fun _ => rfl⟩
  | cons head tail =>
    refine ⟨fun absent => ?_, fun impossible => nomatch impossible⟩
    unfold loosest? at absent
    split at absent
    · cases absent
    · split at absent <;> cases absent

/-- No operator before the cut is looser than its own, and all behind it bind more tightly. -/
theorem bounds_of_loosest? {rest : List (BinaryOp × Tree)} {cut : Cut}
    (found : loosest? rest = some cut) :
    (∀ link ∈ cut.before, cut.op.level ≤ link.1.level) ∧
      ∀ link ∈ cut.after, cut.op.level < link.1.level := by
  induction rest generalizing cut with
  | nil => cases found
  | cons head tail ih =>
    unfold loosest? at found
    split at found
    · next absent =>
      cases found
      rw [loosest?_eq_none_iff.1 absent]
      exact ⟨nofun, nofun⟩
    · next inner same =>
      obtain ⟨before, after⟩ := ih same
      split at found
      · next looser =>
        cases found
        refine ⟨nofun, fun link mem => ?_⟩
        rw [eq_of_loosest? same, List.mem_append, List.mem_cons] at mem
        rcases mem with mem | rfl | mem
        · exact Nat.lt_of_lt_of_le looser (before link mem)
        · exact looser
        · exact Nat.lt_trans looser (after link mem)
      · next tighter =>
        cases found
        refine ⟨fun link mem => ?_, after⟩
        rcases List.mem_cons.1 mem with rfl | mem
        · exact Nat.le_of_not_lt tighter
        · exact before link mem

theorem loosest?_of_bounds {before after : List (BinaryOp × Tree)} {op : BinaryOp} {operand : Tree}
    (loosest : ∀ link ∈ before, op.level ≤ link.1.level)
    (rightmost : ∀ link ∈ after, op.level < link.1.level) :
    loosest? (before ++ (op, operand) :: after) = some ⟨before, op, operand, after⟩ := by
  induction before with
  | nil =>
    rw [List.nil_append, loosest?]
    split
    · rfl
    · next cut found =>
      have mem : (cut.op, cut.operand) ∈ after := by
        rw [eq_of_loosest? found]
        exact List.mem_append_right _ List.mem_cons_self
      rw [if_pos (rightmost _ mem)]
  | cons head tail ih =>
    rw [List.cons_append, loosest?, ih fun link mem => loosest link (List.mem_cons_of_mem _ mem)]
    have bound : op.level ≤ head.1.level := loosest head List.mem_cons_self
    exact if_neg (Nat.not_lt.2 bound)

/-- The cut of a chain is the rightmost of its loosest operators. -/
theorem loosest?_eq_some_iff {rest : List (BinaryOp × Tree)} {cut : Cut} :
    loosest? rest = some cut ↔
      rest = cut.before ++ (cut.op, cut.operand) :: cut.after ∧
      (∀ link ∈ cut.before, cut.op.level ≤ link.1.level) ∧
      ∀ link ∈ cut.after, cut.op.level < link.1.level := by
  constructor
  · exact fun found => ⟨eq_of_loosest? found, bounds_of_loosest? found⟩
  · rintro ⟨rfl, loosest, rightmost⟩
    exact loosest?_of_bounds loosest rightmost

theorem assemble_single (tree : Tree) : assemble ⟨tree, []⟩ = tree := by
  rw [assemble, assembleFrom]
  rfl

/-- A chain with a cut has the operator of the cut as its root. -/
theorem assemble_of_loosest? {chain : Chain} {cut : Cut} (found : loosest? chain.rest = some cut) :
    chain.assemble =
      .binary (.binary cut.op) (assemble ⟨chain.first, cut.before⟩)
        (assemble ⟨cut.operand, cut.after⟩) := by
  rw [assemble, assembleFrom]
  split
  · next absent => rw [found] at absent; cases absent
  · next other same =>
    rw [found] at same
    cases same
    rfl

/-- The operator between two chains is the root, if none on its left is looser and all on its right
bind more tightly. -/
theorem assemble_append {left right : Chain} {op : BinaryOp}
    (loosest : ∀ link ∈ left.rest, op.level ≤ link.1.level)
    (rightmost : ∀ link ∈ right.rest, op.level < link.1.level) :
    (left.append op right).assemble = .binary (.binary op) left.assemble right.assemble := by
  have cut : loosest? (left.append op right).rest = some ⟨left.rest, op, right.first, right.rest⟩ :=
    loosest?_eq_some_iff.2 ⟨rfl, loosest, rightmost⟩
  exact assemble_of_loosest? cut

end Chain

/-! ## The grammar with chains -/

/-- The chain that a stretch of tokens is read as. That of an operand is the operand alone. -/
inductive ChainOf : Phrase → List Token → Chain → Prop
  | atom {token : Token} (atom : token.kind.isAtom = true) :
      ChainOf .operand [token] ⟨.leaf token.kind token.source, []⟩
  | parens {opening closing : Token} {inner : List Token} {chain : Chain}
      (opens : opening.kind = .leftParen) (closes : closing.kind = .rightParen)
      (group : ChainOf .group inner chain) :
      ChainOf .operand (opening :: inner ++ [closing]) ⟨chain.assemble, []⟩
  | range {name start stop : Token} {fn : Aggregate} (named : name.kind = .aggregate fn)
      (starts : start.kind = .reference) (stops : stop.kind = .reference) :
      ChainOf .operand [name, start, stop]
        ⟨.binary name.kind (.leaf .reference start.source) (.leaf .reference stop.source), []⟩
  | operand {tokens : List Token} {chain : Chain} (operand : ChainOf .operand tokens chain) :
      ChainOf .group tokens chain
  | unary {marker : Token} {inner : List Token} {op : UnaryOp} {chain : Chain}
      (marked : marker.kind = .unary op) (group : ChainOf .group inner chain) :
      ChainOf .group (marker :: inner) ⟨.unary marker.kind chain.assemble, []⟩
  | link {first others : List Token} {sign : Token} {op : BinaryOp} {head chain : Chain}
      (operand : ChainOf .operand first head) (signed : sign.kind = .binary op)
      (group : ChainOf .group others chain) :
      ChainOf .group (first ++ sign :: others) ⟨head.first, (op, chain.first) :: chain.rest⟩

namespace ChainOf

theorem derives {phrase : Phrase} {tokens : List Token} {chain : Chain}
    (read : ChainOf phrase tokens chain) : Derives phrase tokens := by
  induction read with
  | atom atom => exact .atom atom
  | parens opens closes _ ih => exact .parens opens closes ih
  | range named starts stops => exact .range named starts stops
  | operand _ ih => exact .operand ih
  | unary marked _ ih => exact .unary marked ih
  | link _ signed _ ihFirst ihOthers => exact .link ihFirst signed ihOthers

theorem exists_of_derives {phrase : Phrase} {tokens : List Token}
    (derived : Derives phrase tokens) : ∃ chain, ChainOf phrase tokens chain := by
  induction derived with
  | atom atom => exact ⟨_, .atom atom⟩
  | parens opens closes _ ih =>
    obtain ⟨chain, group⟩ := ih
    exact ⟨_, .parens opens closes group⟩
  | range named starts stops => exact ⟨_, .range named starts stops⟩
  | operand _ ih =>
    obtain ⟨chain, operand⟩ := ih
    exact ⟨chain, .operand operand⟩
  | unary marked _ ih =>
    obtain ⟨chain, group⟩ := ih
    exact ⟨_, .unary marked group⟩
  | link _ signed _ ihFirst ihOthers =>
    obtain ⟨head, operand⟩ := ihFirst
    obtain ⟨chain, group⟩ := ihOthers
    exact ⟨_, .link operand signed group⟩

/-- An operand has no operators of its own. -/
theorem rest_eq_nil {phrase : Phrase} {tokens : List Token} {chain : Chain}
    (read : ChainOf phrase tokens chain) : phrase = .operand → chain.rest = [] := by
  cases read with
  | atom _ | parens _ _ _ | range _ _ _ => exact fun _ => rfl
  | operand _ | unary _ _ | link _ _ _ => exact fun impossible => nomatch impossible

/-! ## Operators of a group -/

/-- Inside parentheses nothing is an operator of the group around them. -/
theorem ownOperators_inner {phrase : Phrase} {tokens : List Token} {chain : Chain}
    (read : ChainOf phrase tokens chain) (depth : Nat) (rest : List Token) :
    ownOperators (depth + 1) (tokens ++ rest) = ownOperators (depth + 1) rest := by
  induction read generalizing depth rest with
  | @atom token atom =>
    rw [List.singleton_append, ownOperators]
    split <;> simp_all [TokenKind.isAtom]
  | @parens opening closing inner chain opens closes group ih =>
    have behind := ih (depth + 1) (closing :: rest)
    simp_all [ownOperators]
  | range named starts stops => simp [ownOperators, named, starts, stops]
  | operand _ ih => exact ih depth rest
  | unary marked _ ih => simp [ownOperators, marked, ih]
  | link _ signed _ ihFirst ihOthers =>
    rw [List.append_assoc, ihFirst, List.cons_append]
    simp [ownOperators, signed, ihOthers]

theorem ownOperators_operand {tokens : List Token} {chain : Chain} {phrase : Phrase}
    (read : ChainOf phrase tokens chain) (rest : List Token) :
    phrase = .operand → ownOperators 0 (tokens ++ rest) = ownOperators 0 rest := by
  cases read with
  | @atom token atom =>
    intro _
    rw [List.singleton_append, ownOperators]
    split <;> simp_all [TokenKind.isAtom]
  | @parens opening closing inner chain opens closes group =>
    intro _
    have behind := group.ownOperators_inner 0 (closing :: rest)
    simp_all [ownOperators]
  | range named starts stops => exact fun _ => by simp [ownOperators, named, starts, stops]
  | operand _ | unary _ _ | link _ _ _ => exact fun impossible => nomatch impossible

/-- A group is closed when it ends in an operand, and open when a unary operator takes in all that
follows. -/
theorem ownOperators_group {phrase : Phrase} {tokens : List Token} {chain : Chain}
    (read : ChainOf phrase tokens chain) :
    (∀ rest, ownOperators 0 (tokens ++ rest) =
      chain.rest.map Prod.fst ++ ownOperators 0 rest) ∨
    ∀ rest, ownOperators 0 (tokens ++ rest) = chain.rest.map Prod.fst := by
  induction read with
  | atom atom => exact Or.inl fun rest => ownOperators_operand (.atom atom) rest rfl
  | parens opens closes group _ =>
    exact Or.inl fun rest => ownOperators_operand (.parens opens closes group) rest rfl
  | range named starts stops =>
    exact Or.inl fun rest => ownOperators_operand (.range named starts stops) rest rfl
  | operand _ ih => exact ih
  | unary marked _ _ => exact Or.inr fun rest => by simp [ownOperators, marked]
  | link operand signed _ _ ih =>
    refine ih.imp (fun closed rest => ?_) (fun opened rest => ?_)
    · rw [List.append_assoc, ownOperators_operand operand _ rfl]
      simp [ownOperators, signed, closed]
    · rw [List.append_assoc, ownOperators_operand operand _ rfl]
      simp [ownOperators, signed, opened]

theorem ownOperators_eq {phrase : Phrase} {tokens : List Token} {chain : Chain}
    (read : ChainOf phrase tokens chain) :
    ownOperators 0 tokens = chain.rest.map Prod.fst := by
  rcases ownOperators_group read with closed | opened
  · have all := closed []
    rwa [List.append_nil, ownOperators, List.append_nil] at all
  · have all := opened []
    rwa [List.append_nil] at all

/-- A group is cut in two at any of the operators of its chain. -/
theorem exists_split {phrase : Phrase} {tokens : List Token} {chain : Chain}
    {before after : List (BinaryOp × Tree)} {op : BinaryOp} {operand : Tree}
    (read : ChainOf phrase tokens chain) (cut : chain.rest = before ++ (op, operand) :: after) :
    ∃ left sign right, tokens = left ++ sign :: right ∧ sign.kind = .binary op ∧
      ChainOf .group left ⟨chain.first, before⟩ ∧ ChainOf .group right ⟨operand, after⟩ ∧
      ownOperators 0 tokens = ownOperators 0 left ++ op :: ownOperators 0 right := by
  induction read generalizing before with
  | atom _ | parens _ _ _ _ | range _ _ _ | unary _ _ _ => simp at cut
  | operand _ ih => exact ih cut
  | @link first others sign op' head chain operand signed group _ ih =>
    have alone : head = ⟨head.first, []⟩ := by
      cases head
      rw [← rest_eq_nil operand rfl]
    have own := (ChainOf.link operand signed group).ownOperators_eq
    cases before with
    | nil =>
      cases cut
      refine ⟨first, sign, others, rfl, signed, .operand (alone ▸ operand), group, ?_⟩
      rw [own, ownOperators_eq operand, ownOperators_eq group, alone]
      rfl
    | cons link before =>
      rw [List.cons_append, List.cons.injEq] at cut
      obtain ⟨rfl, cut⟩ := cut
      obtain ⟨left, middle, right, rfl, middleSigned, leftGroup, rightGroup, split⟩ := ih cut
      refine ⟨first ++ sign :: left, middle, right, by simp, middleSigned,
        .link operand signed leftGroup, rightGroup, ?_⟩
      rw [(ChainOf.link operand signed leftGroup).ownOperators_eq, own, cut,
        ownOperators_eq rightGroup]
      simp

/-- Two groups are joined by an operator that belongs to neither. -/
theorem join {phrase : Phrase} {left right : List Token} {sign : Token} {op : BinaryOp}
    {leftChain rightChain : Chain} (signed : sign.kind = .binary op)
    (leftGroup : ChainOf phrase left leftChain) (rightGroup : ChainOf .group right rightChain)
    (own : ownOperators 0 (left ++ sign :: right) =
      ownOperators 0 left ++ op :: ownOperators 0 right) :
    ChainOf .group (left ++ sign :: right)
      ⟨leftChain.first, leftChain.rest ++ (op, rightChain.first) :: rightChain.rest⟩ := by
  induction leftGroup with
  | atom atom => exact .link (.atom atom) signed rightGroup
  | parens opens closes group _ => exact .link (.parens opens closes group) signed rightGroup
  | range named starts stops => exact .link (.range named starts stops) signed rightGroup
  | operand _ ih => exact ih own
  | unary marked _ _ => simp [ownOperators, marked] at own
  | link operand leftSigned group _ ih =>
    rw [List.append_assoc, ownOperators_operand operand _ rfl,
      ownOperators_operand operand _ rfl] at own
    simp only [List.cons_append, ownOperators, leftSigned, if_true, List.cons.injEq,
      true_and] at own
    rw [List.append_assoc]
    exact .link operand leftSigned (ih own)

end ChainOf

/-! ## Trees -/
theorem IsTreeOf.exists_chainOf {tokens : List Token} {tree : Tree}
    (stands : IsTreeOf tokens tree) :
    ∃ chain, ChainOf .group tokens chain ∧ chain.assemble = tree := by
  induction stands with
  | atom atom => exact ⟨_, .operand (.atom atom), Chain.assemble_single _⟩
  | parens opens closes _ ih =>
    obtain ⟨chain, group, rfl⟩ := ih
    exact ⟨_, .operand (.parens opens closes group), Chain.assemble_single _⟩
  | range named starts stops =>
    exact ⟨_, .operand (.range named starts stops), Chain.assemble_single _⟩
  | unary marked _ ih =>
    obtain ⟨chain, group, rfl⟩ := ih
    exact ⟨_, .unary marked group, Chain.assemble_single _⟩
  | binary root _ _ ihLeft ihRight =>
    obtain ⟨leftChain, leftGroup, rfl⟩ := ihLeft
    obtain ⟨rightChain, rightGroup, rfl⟩ := ihRight
    have loosest := root.loosest
    have rightmost := root.rightmost
    simp only [leftGroup.ownOperators_eq, rightGroup.ownOperators_eq, ← BinaryOp.level_eq_rank,
      List.mem_map, forall_exists_index, and_imp, forall_apply_eq_imp_iff₂] at loosest rightmost
    refine ⟨_, .join root.signed leftGroup rightGroup root.own, ?_⟩
    rw [root.signed]
    exact Chain.assemble_append loosest rightmost

theorem ChainOf.isTreeOf {tokens : List Token} {chain : Chain}
    (read : ChainOf .group tokens chain) : IsTreeOf tokens chain.assemble := by
  induction size : tokens.length using Nat.strongRecOn generalizing tokens chain with
  | ind size ih =>
    cases found : Chain.loosest? chain.rest with
    | none =>
      -- without operators of its own the group is one operand or one unary operator
      have alone := Chain.loosest?_eq_none_iff.1 found
      cases read with
      | operand operand =>
        cases operand with
        | atom atom => exact Chain.assemble_single _ ▸ .atom atom
        | parens opens closes group =>
          rw [Chain.assemble_single]
          refine .parens opens closes (ih _ ?_ group rfl)
          simp only [← size, List.length_append, List.length_cons]
          omega
        | range named starts stops => exact Chain.assemble_single _ ▸ .range named starts stops
      | unary marked group =>
        rw [Chain.assemble_single]
        exact .unary marked (ih _ (by simp [← size]) group rfl)
      | link _ _ _ => cases alone
    | some cut =>
      obtain ⟨whole, before, after⟩ := Chain.loosest?_eq_some_iff.1 found
      obtain ⟨left, sign, right, rfl, signed, leftGroup, rightGroup, own⟩ := read.exists_split whole
      rw [Chain.assemble_of_loosest? found, ← signed]
      refine .binary ⟨signed, own, ?_, ?_⟩ (ih _ ?_ leftGroup rfl) (ih _ ?_ rightGroup rfl)
      · simpa [leftGroup.ownOperators_eq, ← BinaryOp.level_eq_rank]
          using fun op tree mem => before (op, tree) mem
      · simpa [rightGroup.ownOperators_eq, ← BinaryOp.level_eq_rank]
          using fun op tree mem => after (op, tree) mem
      · simp [← size]
      · simp only [← size, List.length_append, List.length_cons]
        omega

/-- A token list stands for the trees that its chains assemble to. -/
theorem isTreeOf_iff {tokens : List Token} {tree : Tree} :
    IsTreeOf tokens tree ↔ ∃ chain, ChainOf .group tokens chain ∧ chain.assemble = tree := by
  constructor
  · exact IsTreeOf.exists_chainOf
  · rintro ⟨chain, read, rfl⟩
    exact read.isTreeOf

/-- A tree keeps all tokens but the parentheses, in the order of the formula. -/
theorem IsTreeOf.words_eq {tokens : List Token} {tree : Tree} (stands : IsTreeOf tokens tree) :
    tree.words = (tokens.filter fun token => !token.isParen).map Token.word := by
  induction stands with
  | @atom token atom =>
    cases kind : token.kind <;>
      simp_all [Tree.words, Token.word, Token.isParen, TokenKind.isAtom]
  | parens opens closes _ ih => simp [Token.isParen, opens, closes, ih]
  | range named starts stops =>
    simp [Tree.words, Token.word, Token.isParen, named, starts, stops, TokenKind.isAtom]
  | unary marked _ ih =>
    simp [Tree.words, Token.word, Token.isParen, marked, ih, TokenKind.isAtom]
  | binary root _ _ ihLeft ihRight =>
    simp [Tree.words, Token.word, Token.isParen, root.signed, ihLeft, ihRight, TokenKind.isAtom]

end CellFormula
