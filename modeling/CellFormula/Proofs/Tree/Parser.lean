import CellFormula.Proofs.Tree.Levels

/-!
# The parser and the grammar

The reader of the loosest level reads a whole group at the front of the tokens, and goes as far as
the grammar lets it.

Main statement: `ofTokens_spec`, the parser accepts exactly the token lists that the grammar
derives, refuses all others with a parse error, and returns the tree that the list stands for.
-/

namespace CellFormula

/-! ## Ends of groups -/

/-- The tokens do not begin with a binary operator, so a group in front of them is at its end. -/
def EndsGroup (rest : List Token) : Prop := ¬ Follows (0 ≤ BinaryOp.level ·) rest

theorem endsGroup_nil : EndsGroup [] := by
  intro follows
  cases follows

theorem endsGroup_cons {token : Token} {rest : List Token} (other : ∀ op, token.kind ≠ .binary op) :
    EndsGroup (token :: rest) := by
  intro follows
  cases follows with
  | intro signed _ => exact other _ signed

/-! ## Single readings -/

theorem readCorner_eq_ok {tokens : List Token} {corner : Parsed Tree tokens}
    (read : readCorner tokens = .ok corner) :
    ∃ token, tokens = token :: corner.rest ∧ token.kind = .reference ∧
      corner.value = .leaf .reference token.source := by
  cases tokens with
  | nil => cases read
  | cons token rest =>
    rw [readCorner] at read
    split at read
    · next isReference =>
      cases read
      exact ⟨token, rfl, isReference, rfl⟩
    · cases read

theorem readCorner_reference {token : Token} (isReference : token.kind = .reference)
    (rest : List Token) :
    readCorner (token :: rest) =
      .ok ⟨.leaf .reference token.source, rest, Nat.lt_succ_self _⟩ := by
  rw [readCorner, if_pos isReference]

theorem readOperand_atom {token : Token} (atom : token.kind.isAtom = true) (rest : List Token) :
    readOperand (token :: rest) =
      .ok ⟨.leaf token.kind token.source, rest, Nat.lt_succ_self _⟩ := by
  rw [readOperand]
  split <;> simp_all [TokenKind.isAtom]

theorem readOperand_parens {opening closing : Token} {tokens behind : List Token} {chain : Chain}
    {shorter : (closing :: behind).length < tokens.length} (opens : opening.kind = .leftParen)
    (closes : closing.kind = .rightParen)
    (group : readChain 0 tokens = .ok ⟨chain, closing :: behind, shorter⟩) :
    ∃ less, readOperand (opening :: tokens) = .ok ⟨chain.assemble, behind, less⟩ := by
  have less : behind.length < (opening :: tokens).length := by
    simp only [List.length_cons] at shorter ⊢
    omega
  refine ⟨less, ?_⟩
  rw [readOperand, opens, readLevel_eq, group]
  exact if_pos closes

theorem readOperand_range {name start stop : Token} {fn : Aggregate}
    (named : name.kind = .aggregate fn) (starts : start.kind = .reference)
    (stops : stop.kind = .reference) (behind : List Token) :
    ∃ less, readOperand (name :: start :: stop :: behind) =
      .ok ⟨.binary name.kind (.leaf .reference start.source) (.leaf .reference stop.source),
        behind, less⟩ := by
  have less : behind.length < (name :: start :: stop :: behind).length := by
    simp only [List.length_cons]
    omega
  refine ⟨less, ?_⟩
  rw [readOperand, named, readCorner_reference starts]
  change (readCorner (stop :: behind) >>= _) = _
  rw [readCorner_reference stops]
  rfl

theorem readOperand_unary {marker : Token} {tokens rest : List Token} {op : UnaryOp}
    {chain : Chain} {shorter : rest.length < tokens.length} (marked : marker.kind = .unary op)
    (group : readChain 0 tokens = .ok ⟨chain, rest, shorter⟩) :
    ∃ less, readOperand (marker :: tokens) =
      .ok ⟨.unary marker.kind chain.assemble, rest, less⟩ := by
  refine ⟨Nat.lt_succ_of_lt shorter, ?_⟩
  rw [readOperand, marked, readLevel_eq, group]
  rfl

theorem readChain_operand {tokens rest : List Token} {tree : Tree}
    {shorter : rest.length < tokens.length} (ends : EndsGroup rest)
    (operand : readOperand tokens = .ok ⟨tree, rest, shorter⟩) :
    readChain 0 tokens = .ok ⟨⟨tree, []⟩, rest, shorter⟩ := by
  rw [readChain_eq, operand, ok_bind]
  exact extend_of_ends ends
theorem readChain_link {tokens behind rest : List Token} {next : Token} {tree : Tree}
    {op : BinaryOp} {chain : Chain} {shorter : (next :: behind).length < tokens.length}
    {less : rest.length < behind.length} (signed : next.kind = .binary op)
    (operand : readOperand tokens = .ok ⟨tree, next :: behind, shorter⟩)
    (group : readChain 0 behind = .ok ⟨chain, rest, less⟩) :
    ∃ least, readChain 0 tokens =
      .ok ⟨⟨tree, (op, chain.first) :: chain.rest⟩, rest, least⟩ := by
  have least : rest.length < tokens.length := by
    simp only [List.length_cons] at shorter
    omega
  refine ⟨least, ?_⟩
  rw [readChain_eq, operand, ok_bind, extend_of_following rfl signed (Nat.zero_le _), group]
  rfl

/-! ## Completeness -/

/-- The parser reads a phrase with this chain at the front of the tokens and leaves `rest`. -/
def Phrase.Reads (tokens : List Token) (chain : Chain) (rest : List Token) : Phrase → Prop
  | .operand => ∃ shorter, readOperand tokens = .ok ⟨chain.first, rest, shorter⟩
  | .group => ∃ shorter, readChain 0 tokens = .ok ⟨chain, rest, shorter⟩

/-- What the grammar derives is read whole, unless the operators go on behind it. -/
theorem ChainOf.reads {phrase : Phrase} {tokens : List Token} {chain : Chain}
    (derived : ChainOf phrase tokens chain) (rest : List Token)
    (ends : phrase = .group → EndsGroup rest) : phrase.Reads (tokens ++ rest) chain rest := by
  induction derived generalizing rest with
  | atom atom => exact ⟨_, readOperand_atom atom rest⟩
  | @parens opening closing inner chain opens closes _ ih =>
    have endsInner : EndsGroup (closing :: rest) := endsGroup_cons fun op => by simp [closes]
    obtain ⟨_, group⟩ := ih (closing :: rest) fun _ => endsInner
    obtain ⟨less, read⟩ := readOperand_parens opens closes group
    have same : opening :: inner ++ [closing] ++ rest = opening :: (inner ++ closing :: rest) := by
      simp
    rw [same]
    exact ⟨less, read⟩
  | range named starts stops => exact readOperand_range named starts stops rest
  | @operand tokens chain operand ih =>
    obtain ⟨shorter, read⟩ := ih rest fun impossible => nomatch impossible
    have alone := operand.rest_eq_nil rfl
    cases chain
    cases alone
    exact ⟨shorter, readChain_operand (ends rfl) read⟩
  | unary marked _ ih =>
    obtain ⟨_, group⟩ := ih rest fun _ => ends rfl
    obtain ⟨less, read⟩ := readOperand_unary marked group
    exact ⟨less, readChain_operand (ends rfl) read⟩
  | @link first others sign op head chain _ signed _ ihFirst ihOthers =>
    obtain ⟨shorter, operand⟩ :=
      ihFirst (sign :: (others ++ rest)) fun impossible => nomatch impossible
    obtain ⟨_, group⟩ := ihOthers rest fun _ => ends rfl
    rw [List.append_assoc]
    exact readChain_link signed operand group

/-! ## Soundness -/

theorem exists_of_readLevel {tokens : List Token} {tree : Parsed Tree tokens}
    (read : readLevel 0 tokens = .ok tree) :
    ∃ group, readChain 0 tokens = .ok group ∧ group.assembled = tree := by
  rw [readLevel_eq] at read
  cases chain : readChain 0 tokens with
  | error cause =>
    rw [chain] at read
    cases read
  | ok group =>
    rw [chain] at read
    cases read
    exact ⟨group, rfl, rfl⟩

theorem exists_of_readOperand_parens {opening : Token} {tokens : List Token}
    {operand : Parsed Tree (opening :: tokens)} (opens : opening.kind = .leftParen)
    (read : readOperand (opening :: tokens) = .ok operand) :
    ∃ group closing, readChain 0 tokens = .ok group ∧ group.rest = closing :: operand.rest ∧
      closing.kind = .rightParen ∧ operand.value = group.value.assemble := by
  rw [readOperand, opens] at read
  obtain ⟨inner, reading, read⟩ := exists_of_bind_eq_ok read
  obtain ⟨group, chain, rfl⟩ := exists_of_readLevel reading
  split at read
  · cases read
  · next closing behind closed =>
    split at read
    · next closes =>
      cases read
      exact ⟨group, closing, chain, closed, closes, rfl⟩
    · cases read

theorem exists_of_readOperand_range {name : Token} {tokens : List Token} {fn : Aggregate}
    {operand : Parsed Tree (name :: tokens)} (named : name.kind = .aggregate fn)
    (read : readOperand (name :: tokens) = .ok operand) :
    ∃ start stop, tokens = start :: stop :: operand.rest ∧ start.kind = .reference ∧
      stop.kind = .reference ∧
      operand.value =
        .binary name.kind (.leaf .reference start.source) (.leaf .reference stop.source) := by
  rw [readOperand, named] at read
  obtain ⟨startCorner, first, read⟩ := exists_of_bind_eq_ok read
  obtain ⟨stopCorner, second, read⟩ := exists_of_bind_eq_ok read
  obtain ⟨start, remaining, starts, startValue⟩ := readCorner_eq_ok first
  obtain ⟨stop, behind, stops, stopValue⟩ := readCorner_eq_ok second
  cases read
  refine ⟨start, stop, ?_, starts, stops, ?_⟩
  · exact remaining.trans (congrArg (start :: ·) behind)
  · rw [startValue, stopValue, named]

theorem exists_of_readOperand_unary {marker : Token} {tokens : List Token} {op : UnaryOp}
    {operand : Parsed Tree (marker :: tokens)} (marked : marker.kind = .unary op)
    (read : readOperand (marker :: tokens) = .ok operand) :
    ∃ group, readChain 0 tokens = .ok group ∧ group.rest = operand.rest ∧
      operand.value = .unary marker.kind group.value.assemble := by
  rw [readOperand, marked] at read
  obtain ⟨inner, reading, read⟩ := exists_of_bind_eq_ok read
  obtain ⟨group, chain, rfl⟩ := exists_of_readLevel reading
  cases read
  exact ⟨group, chain, rfl, by rw [marked]; rfl⟩

/-- A group is one operand, or an operand and a group that a binary operator links to it. -/
theorem exists_of_readChain {tokens : List Token} {group : Parsed Chain tokens}
    (read : readChain 0 tokens = .ok group) :
    ∃ operand, readOperand tokens = .ok operand ∧
      (EndsGroup operand.rest ∧ group.rest = operand.rest ∧ group.value = ⟨operand.value, []⟩ ∨
        ∃ sign behind op others, operand.rest = sign :: behind ∧ sign.kind = .binary op ∧
          readChain 0 behind = .ok others ∧ group.rest = others.rest ∧
          group.value = ⟨operand.value, (op, others.value.first) :: others.value.rest⟩) := by
  rw [readChain_eq] at read
  obtain ⟨operand, first, read⟩ := exists_of_bind_eq_ok read
  refine ⟨operand, first, ?_⟩
  by_cases follows : Follows (0 ≤ BinaryOp.level ·) operand.rest
  · obtain ⟨sign, behind, op, following, signed, tight⟩ := follows.exists_cons
    rw [extend_of_following following signed tight] at read
    obtain ⟨others, inner, read⟩ := exists_of_bind_eq_ok read
    cases read
    exact Or.inr ⟨sign, behind, op, others, following, signed, inner, rfl, rfl⟩
  · rw [extend_of_ends follows] at read
    cases read
    exact Or.inl ⟨follows, rfl, rfl⟩

/-- The tokens are those of an operand, or of a unary operator that took in its whole group. -/
def OperandOf (front : List Token) (tree : Tree) (rest : List Token) : Prop :=
  ChainOf .operand front ⟨tree, []⟩ ∨ ChainOf .group front ⟨tree, []⟩ ∧ EndsGroup rest

/-- What is read as an operand, the grammar derives, if it derives the groups inside. -/
theorem exists_operandOf_of_read {tokens : List Token} {operand : Parsed Tree tokens}
    (inner : ∀ behind : List Token, behind.length < tokens.length → ∀ group,
      readChain 0 behind = .ok group →
      ∃ front, behind = front ++ group.rest ∧ ChainOf .group front group.value ∧
        EndsGroup group.rest)
    (read : readOperand tokens = .ok operand) :
    ∃ front, tokens = front ++ operand.rest ∧ OperandOf front operand.value operand.rest := by
  cases tokens with
  | nil =>
    rw [readOperand] at read
    cases read
  | cons token rest =>
    cases kind : token.kind with
    | reference | integer | float | boolean | string =>
      have atom : token.kind.isAtom = true := by rw [kind]; rfl
      rw [readOperand_atom atom] at read
      cases read
      exact ⟨[token], rfl, Or.inl (.atom atom)⟩
    | leftParen =>
      obtain ⟨group, closing, found, closed, closes, value⟩ :=
        exists_of_readOperand_parens kind read
      obtain ⟨front, behind, derived, _⟩ := inner rest (Nat.lt_succ_self _) group found
      refine ⟨token :: front ++ [closing], ?_, Or.inl (value ▸ .parens kind closes derived)⟩
      rw [closed] at behind
      simpa using behind
    | aggregate fn =>
      obtain ⟨start, stop, behind, starts, stops, value⟩ := exists_of_readOperand_range kind read
      refine ⟨[token, start, stop], ?_, Or.inl (value ▸ .range kind starts stops)⟩
      exact congrArg (token :: ·) behind
    | unary op =>
      obtain ⟨group, found, remaining, value⟩ := exists_of_readOperand_unary kind read
      obtain ⟨front, behind, derived, ends⟩ := inner rest (Nat.lt_succ_self _) group found
      refine ⟨token :: front, ?_, Or.inr ⟨value ▸ .unary kind derived, remaining ▸ ends⟩⟩
      rw [remaining] at behind
      exact congrArg (token :: ·) behind
    | assignment | rightParen | binary _ =>
      rw [readOperand, kind] at read
      cases read

/-- What is read at the front of the tokens, the grammar derives. -/
theorem exists_chainOf_of_read (tokens : List Token) :
    (∀ operand, readOperand tokens = .ok operand →
      ∃ front, tokens = front ++ operand.rest ∧ OperandOf front operand.value operand.rest) ∧
    ∀ group, readChain 0 tokens = .ok group →
      ∃ front, tokens = front ++ group.rest ∧ ChainOf .group front group.value ∧
        EndsGroup group.rest := by
  induction length : tokens.length using Nat.strongRecOn generalizing tokens with
  | ind _ ih =>
    have inner := fun (behind : List Token) (less : behind.length < tokens.length) =>
      (ih behind.length (length ▸ less) behind rfl).2
    -- a group is read with the operand in front of it, so operands come first
    have operands : ∀ operand, readOperand tokens = .ok operand →
        ∃ front, tokens = front ++ operand.rest ∧ OperandOf front operand.value operand.rest :=
      fun operand read => exists_operandOf_of_read inner read
    refine ⟨operands, ?_⟩
    intro group read
    obtain ⟨operand, first,
        last | ⟨sign, behind, op, others, following, signed, next, rest, value⟩⟩ :=
      exists_of_readChain read
    · obtain ⟨front, all, derived⟩ := operands operand first
      obtain ⟨ends, rest, value⟩ := last
      rw [rest, value]
      rcases derived with operandChain | ⟨groupChain, _⟩
      · exact ⟨front, all, .operand operandChain, ends⟩
      · exact ⟨front, all, groupChain, ends⟩
    · obtain ⟨front, all, derived⟩ := operands operand first
      obtain ⟨rear, remaining, linked, ends⟩ :=
        inner behind (Parsed.less_of_following following) others next
      rw [rest, value]
      rcases derived with operandChain | ⟨_, operandEnds⟩
      · refine ⟨front ++ sign :: rear, ?_, .link operandChain signed linked, ends⟩
        rw [all, following]
        simpa using remaining
      · refine absurd ?_ operandEnds
        rw [following]
        exact .intro signed (Nat.zero_le _)

/-- The parser reads all tokens exactly when they are a group of the grammar, and assembles its
chain. -/
theorem parse_eq_ok_iff {tokens : List Token} {tree : Tree} :
    parse tokens = .ok tree ↔ IsTreeOf tokens tree := by
  rw [isTreeOf_iff]
  constructor
  · intro parsed
    unfold parse at parsed
    obtain ⟨whole, read, finish⟩ := exists_of_bind_eq_ok parsed
    obtain ⟨group, chain, rfl⟩ := exists_of_readLevel read
    obtain ⟨front, all, derived, _⟩ := (exists_chainOf_of_read tokens).2 group chain
    split at finish
    · next done =>
      cases finish
      change group.rest = [] at done
      rw [done, List.append_nil] at all
      exact ⟨group.value, all ▸ derived, rfl⟩
    · cases finish
  · rintro ⟨chain, derived, rfl⟩
    have all := derived.reads [] fun _ => endsGroup_nil
    rw [List.append_nil] at all
    obtain ⟨_, read⟩ := all
    unfold parse
    rw [readLevel_eq, read]
    rfl

theorem exists_isTreeOf_iff {tokens : List Token} :
    (∃ tree, IsTreeOf tokens tree) ↔ Derives .group tokens := by
  constructor
  · rintro ⟨tree, stands⟩
    obtain ⟨chain, derived, _⟩ := isTreeOf_iff.1 stands
    exact derived.derives
  · intro derived
    obtain ⟨chain, read⟩ := ChainOf.exists_of_derives derived
    exact ⟨chain.assemble, read.isTreeOf⟩

theorem ofTokens_eq_ok_iff {tokens : List Token} {tree : Tree} :
    Tree.ofTokens tokens = .ok tree ↔ IsTreeOf tokens tree := by
  rw [← parse_eq_ok_iff, Tree.ofTokens]
  cases parse tokens with
  | error cause => exact iff_of_false nofun nofun
  | ok other => exact ⟨fun same => by cases same; rfl, fun same => by cases same; rfl⟩

/-- A token list has a tree exactly when the grammar derives it, and the parser returns the only
tree that the list stands for; any other list is refused with a parse error. All tokens but the
parentheses are found in the tree again, in order. -/
theorem ofTokens_spec (tokens : List Token) :
    ((∃ tree, Tree.ofTokens tokens = .ok tree) ↔ Derives .group tokens) ∧
    (¬ Derives .group tokens → ∃ cause, Tree.ofTokens tokens = .error (.parse cause)) ∧
    (∀ tree, Tree.ofTokens tokens = .ok tree ↔ IsTreeOf tokens tree) ∧
    ∀ tree, Tree.ofTokens tokens = .ok tree →
      tree.words = (tokens.filter fun token => !token.isParen).map Token.word := by
  have accepts : (∃ tree, Tree.ofTokens tokens = .ok tree) ↔ Derives .group tokens := by
    simp only [ofTokens_eq_ok_iff, exists_isTreeOf_iff]
  refine ⟨accepts, fun refused => ?_, fun tree => ofTokens_eq_ok_iff, fun tree parsed => ?_⟩
  · unfold Tree.ofTokens at accepts ⊢
    cases parsed : parse tokens with
    | error cause => exact ⟨cause, rfl⟩
    | ok tree => exact absurd (accepts.1 ⟨tree, by rw [parsed]; rfl⟩) refused
  · exact (ofTokens_eq_ok_iff.1 parsed).words_eq

end CellFormula
