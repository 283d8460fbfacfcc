import CellFormula.Proofs.Tree.Chain
import CellFormula.Tree.Parser

/-!
# Levels and chains

The readers of the levels, one inside the other, find out how operands belong together while they
read. `readChain` only reads: it takes all operands that are linked by operators of a level and
tighter ones, and leaves it to the chain what belongs to what.

Main statement: `readLevel_eq`, the reader of a level makes the tree of the chain that is read at
that level. It rests on `readChain_eq`, a chain of a level is chains of the next level, one after
the other.
-/

namespace CellFormula

/-! ## Steps in sequence -/

section Steps

variable {ε α β : Type}

theorem ok_bind (a : α) (f : α → Except ε β) : (Except.ok a >>= f) = f a := rfl

/-- Steps in sequence succeed only if each of them does. -/
theorem exists_of_bind_eq_ok {x : Except ε α} {f : α → Except ε β} {b : β}
    (done : x >>= f = .ok b) : ∃ a, x = .ok a ∧ f a = .ok b := by
  cases x with
  | error e => cases done
  | ok a => exact ⟨a, rfl, done⟩

/-- Steps in sequence fail where the first of them fails. -/
theorem of_bind_eq_error {x : Except ε α} {f : α → Except ε β} {e : ε}
    (failed : x >>= f = .error e) : x = .error e ∨ ∃ a, x = .ok a ∧ f a = .error e := by
  cases x with
  | error other => exact Or.inl (by cases failed; rfl)
  | ok a => exact Or.inr ⟨a, rfl, failed⟩

end Steps

/-! ## What follows an operand -/

/-- The tokens begin with a binary operator that satisfies `p`. -/
inductive Follows (p : BinaryOp → Prop) : List Token → Prop
  | intro {next : Token} {behind : List Token} {op : BinaryOp} (signed : next.kind = .binary op)
      (holds : p op) : Follows p (next :: behind)

theorem Follows.exists_cons {p : BinaryOp → Prop} {rest : List Token} (follows : Follows p rest) :
    ∃ next behind op, rest = next :: behind ∧ next.kind = .binary op ∧ p op := by
  cases follows with
  | intro signed holds => exact ⟨_, _, _, rfl, signed, holds⟩

theorem follows_cons_iff {p : BinaryOp → Prop} {next : Token} {behind : List Token} {op : BinaryOp}
    (signed : next.kind = .binary op) : Follows p (next :: behind) ↔ p op := by
  constructor
  · intro follows
    cases follows with
    | intro other holds =>
      cases signed.symm.trans other
      exact holds
  · exact .intro signed

/-! ## Reading chains -/

namespace Parsed

variable {tokens behind : List Token}

/-- The tree of a chain that was read. -/
def assembled (chain : Parsed Chain tokens) : Parsed Tree tokens :=
  ⟨chain.value.assemble, chain.rest, chain.shorter⟩

/-- An operand as a chain. -/
def single (operand : Parsed Tree tokens) : Parsed Chain tokens :=
  ⟨⟨operand.value, []⟩, operand.rest, operand.shorter⟩

/-- Two chains with an operator between them, of which the right one was read behind the left. -/
def link (left : Parsed Chain tokens) (op : BinaryOp) (right : Parsed Chain behind)
    (less : behind.length < tokens.length) : Parsed Chain tokens :=
  ⟨left.value.append op right.value, right.rest, Nat.lt_trans right.shorter less⟩

theorem assembled_single (operand : Parsed Tree tokens) : operand.single.assembled = operand := by
  show (⟨Chain.assemble ⟨operand.value, []⟩, operand.rest, operand.shorter⟩ :
    Parsed Tree tokens) = _
  congr 1
  exact Chain.assemble_single operand.value

theorem link_link {farther : List Token} (first : Parsed Chain tokens) (op : BinaryOp)
    (second : Parsed Chain behind) (sign : BinaryOp) (third : Parsed Chain farther)
    (less : behind.length < tokens.length) (fewer : farther.length < behind.length)
    (fewest : farther.length < tokens.length) :
    (first.link op second less).link sign third fewest =
      first.link op (second.link sign third fewer) less := by
  unfold link
  congr 1
  exact Chain.append_append first.value op second.value sign third.value

theorem less_of_following {α : Type} {left : Parsed α tokens} {next : Token}
    (following : left.rest = next :: behind) : behind.length < tokens.length := by
  have shorter := left.shorter
  rw [following, List.length_cons] at shorter
  omega

end Parsed

/-- Reads operands that are linked by operators of this level and tighter ones. -/
def readChain (level : Nat) (tokens : List Token) : Except ParseError (Parsed Chain tokens) := do
  let operand ← readOperand tokens
  match _following : operand.rest with
  | [] => .ok operand.single
  | next :: behind =>
    match next.kind with
    | .binary op =>
      if level ≤ op.level then do
        let right ← readChain level behind
        .ok (operand.single.link op right (Parsed.less_of_following _following))
      else .ok operand.single
    | _ => .ok operand.single
termination_by tokens.length
decreasing_by exact Parsed.less_of_following _following

/-- Goes on with a chain of this level, if an operator of the level or a tighter one follows. -/
def extend (level : Nat) {tokens : List Token} (left : Parsed Chain tokens) :
    Except ParseError (Parsed Chain tokens) :=
  match _following : left.rest with
  | [] => .ok left
  | next :: behind =>
    match next.kind with
    | .binary op =>
      if level ≤ op.level then do
        let right ← readChain level behind
        .ok (left.link op right (Parsed.less_of_following _following))
      else .ok left
    | _ => .ok left

section Chains

variable {level : Nat} {tokens behind : List Token} {next : Token} {op : BinaryOp}

theorem extend_of_ends {left : Parsed Chain tokens}
    (ends : ¬ Follows (level ≤ BinaryOp.level ·) left.rest) : extend level left = .ok left := by
  unfold extend
  split
  · rfl
  · next next behind following =>
    split
    · next op signed =>
      rw [following, follows_cons_iff signed] at ends
      exact if_neg ends
    · rfl

theorem extend_of_following {left : Parsed Chain tokens} (following : left.rest = next :: behind)
    (signed : next.kind = .binary op) (tight : level ≤ op.level) :
    extend level left = (do
      let right ← readChain level behind
      .ok (left.link op right (Parsed.less_of_following following))) := by
  unfold extend
  split
  · next ended =>
    rw [following] at ended
    cases ended
  · next other rest same =>
    cases following.symm.trans same
    split
    · next sign alike =>
      cases signed.symm.trans alike
      exact if_pos tight
    · next different => exact absurd signed (different op)

theorem readChain_eq (level : Nat) (tokens : List Token) :
    readChain level tokens = (do
      let operand ← readOperand tokens
      extend level operand.single) := by
  rw [readChain]
  rfl

/-- All operators of a chain are of its level or tighter, and no such operator follows it. -/
theorem bounds_of_readChain {chain : Parsed Chain tokens}
    (read : readChain level tokens = .ok chain) :
    (∀ link ∈ chain.value.rest, level ≤ link.1.level) ∧
      ¬ Follows (level ≤ BinaryOp.level ·) chain.rest := by
  induction length : tokens.length using Nat.strongRecOn generalizing tokens with
  | ind _ ih =>
    rw [readChain_eq] at read
    obtain ⟨operand, _, read⟩ := exists_of_bind_eq_ok read
    by_cases follows : Follows (level ≤ BinaryOp.level ·) operand.rest
    · obtain ⟨next, behind, op, following, signed, tight⟩ := follows.exists_cons
      have less : behind.length < tokens.length := Parsed.less_of_following following
      rw [extend_of_following following signed tight] at read
      obtain ⟨right, inner, read⟩ := exists_of_bind_eq_ok read
      obtain ⟨links, ends⟩ := ih behind.length (length ▸ less) inner rfl
      cases read
      refine ⟨?_, ends⟩
      intro link mem
      rcases List.mem_cons.1 mem with rfl | mem
      · exact tight
      · exact links link mem
    · rw [extend_of_ends follows] at read
      cases read
      refine ⟨?_, follows⟩
      intro link mem
      cases mem

/-- What goes on behind two chains goes on behind the right one. -/
theorem extend_link (left : Parsed Chain tokens) (op : BinaryOp) (right : Parsed Chain behind)
    (less : behind.length < tokens.length) :
    extend level (left.link op right less) = (do
      let more ← extend level right
      .ok (left.link op more less)) := by
  by_cases follows : Follows (level ≤ BinaryOp.level ·) right.rest
  · obtain ⟨next, rest, sign, following, signed, tight⟩ := follows.exists_cons
    have same : (left.link op right less).rest = next :: rest := following
    rw [extend_of_following same signed tight, extend_of_following following signed tight,
      bind_assoc]
    congr 1
    funext more
    rw [ok_bind, Parsed.link_link]
  · have ends : ¬ Follows (level ≤ BinaryOp.level ·) (left.link op right less).rest := follows
    rw [extend_of_ends ends, extend_of_ends follows, ok_bind]

/-- A chain of a level begins with a chain of the next level. -/
theorem readChain_succ (level : Nat) (tokens : List Token) :
    readChain level tokens = (do
      let left ← readChain (level + 1) tokens
      extend level left) := by
  induction length : tokens.length using Nat.strongRecOn generalizing tokens with
  | ind _ ih =>
    rw [readChain_eq, readChain_eq]
    cases readOperand tokens with
    | error cause => rfl
    | ok operand =>
      rw [ok_bind, ok_bind]
      by_cases follows : Follows (level + 1 ≤ BinaryOp.level ·) operand.rest
      · obtain ⟨next, behind, op, following, signed, tight⟩ := follows.exists_cons
        have less : behind.length < tokens.length := Parsed.less_of_following following
        have same : operand.single.rest = next :: behind := following
        rw [extend_of_following same signed tight,
          extend_of_following same signed (Nat.le_of_succ_le tight),
          ih behind.length (length ▸ less) behind rfl]
        cases readChain (level + 1) behind with
        | error cause => rfl
        | ok right =>
          rw [ok_bind, ok_bind, ok_bind, extend_link]
      · have ends : ¬ Follows (level + 1 ≤ BinaryOp.level ·) operand.single.rest := follows
        rw [extend_of_ends ends, ok_bind]

end Chains

/-! ## The readers of the levels -/

section Levels

variable {level : Nat} {tokens behind : List Token} {next : Token} {op : BinaryOp}

theorem readLinks_of_ends {left : Parsed Tree tokens}
    (ends : ¬ Follows (BinaryOp.level · = level) left.rest) : readLinks level left = .ok left := by
  rw [readLinks]
  split
  · rfl
  · next next behind following =>
    split
    · next op signed =>
      rw [following, follows_cons_iff signed] at ends
      exact if_neg ends
    · rfl

theorem readLinks_of_following {left : Parsed Tree tokens} (following : left.rest = next :: behind)
    (signed : next.kind = .binary op) (alike : op.level = level) :
    readLinks level left = (do
      let right ← readLevel (level + 1) behind
      readLinks level ⟨.binary (.binary op) left.value right.value, right.rest,
        Nat.lt_trans right.shorter (Parsed.less_of_following following)⟩) := by
  rw [readLinks]
  split
  · next ended =>
    rw [following] at ended
    cases ended
  · next other rest same =>
    cases following.symm.trans same
    split
    · next sign known =>
      cases signed.symm.trans known
      exact if_pos alike
    · next different => exact absurd signed (different op)

/-- The reader of a level goes on like the chain of the level, if the next tighter level is read
alike behind it. -/
theorem readLinks_eq
    (inner : ∀ behind : List Token, behind.length < tokens.length →
      readLevel (level + 1) behind = (readChain (level + 1) behind).map Parsed.assembled)
    (left : Parsed Chain tokens) (links : ∀ link ∈ left.value.rest, level ≤ link.1.level)
    (ends : ¬ Follows (level + 1 ≤ BinaryOp.level ·) left.rest) :
    readLinks level left.assembled = (extend level left).map Parsed.assembled := by
  induction length : left.rest.length using Nat.strongRecOn generalizing left with
  | ind _ ih =>
    by_cases follows : Follows (BinaryOp.level · = level) left.rest
    · obtain ⟨next, behind, op, following, signed, alike⟩ := follows.exists_cons
      have less : behind.length < tokens.length := Parsed.less_of_following following
      have same : left.assembled.rest = next :: behind := following
      rw [readLinks_of_following same signed alike, inner behind less,
        extend_of_following following signed (Nat.le_of_eq alike.symm), readChain_succ level behind]
      cases read : readChain (level + 1) behind with
      | error cause => rfl
      | ok right =>
        obtain ⟨rightLinks, rightEnds⟩ := bounds_of_readChain read
        -- the new operator is as loose as any in the chain so far, and all behind it are tighter
        have root : (left.link op right less).assembled =
            ⟨.binary (.binary op) left.assembled.value right.assembled.value, right.rest,
              Nat.lt_trans right.shorter less⟩ := by
          unfold Parsed.assembled Parsed.link
          congr 1
          refine Chain.assemble_append ?_ ?_
          · exact fun link mem => alike ▸ links link mem
          · exact fun link mem => Nat.lt_of_succ_le (alike ▸ rightLinks link mem)
        have shorter : right.rest.length < left.rest.length := by
          rw [following, List.length_cons]
          exact Nat.lt_succ_of_lt right.shorter
        have joined : ∀ link ∈ (left.link op right less).value.rest, level ≤ link.1.level := by
          intro link mem
          rcases List.mem_append.1 mem with mem | mem
          · exact links link mem
          · rcases List.mem_cons.1 mem with rfl | mem
            · exact Nat.le_of_eq alike.symm
            · exact Nat.le_of_succ_le (rightLinks link mem)
        have more := ih right.rest.length (length ▸ shorter) (left.link op right less) joined
          rightEnds rfl
        rw [root, extend_link] at more
        exact more
    · have past : ¬ Follows (level ≤ BinaryOp.level ·) left.rest := by
        intro follow
        obtain ⟨next, behind, op, following, signed, tight⟩ := follow.exists_cons
        rw [following, follows_cons_iff signed] at follows ends
        omega
      have done : ¬ Follows (BinaryOp.level · = level) left.assembled.rest := follows
      rw [readLinks_of_ends done, extend_of_ends past]
      rfl

/-- The reader of a level reads the chain of the level and makes the tree of it. -/
theorem readLevel_eq (level : Nat) (tokens : List Token) :
    readLevel level tokens = (readChain level tokens).map Parsed.assembled := by
  -- the tighter levels read the same tokens, and what is behind them is shorter
  induction length : tokens.length using Nat.strongRecOn generalizing level tokens with
  | ind _ ihTokens =>
    induction room : BinaryOp.levels - level generalizing level with
    | zero =>
      have past : ¬ level < BinaryOp.levels := by omega
      rw [readLevel, if_neg past, readChain_eq]
      cases readOperand tokens with
      | error cause => rfl
      | ok operand =>
        have ends : ¬ Follows (level ≤ BinaryOp.level ·) operand.single.rest := by
          intro follows
          obtain ⟨_, _, op, _, _, tight⟩ := follows.exists_cons
          exact past (Nat.lt_of_le_of_lt tight op.level_lt)
        rw [ok_bind, extend_of_ends ends]
        exact congrArg Except.ok (Parsed.assembled_single operand).symm
    | succ room ihLevel =>
      have below : level < BinaryOp.levels := by omega
      rw [readLevel, if_pos below, ihLevel (level + 1) (by omega), readChain_succ level tokens]
      cases read : readChain (level + 1) tokens with
      | error cause => rfl
      | ok left =>
        obtain ⟨links, ends⟩ := bounds_of_readChain read
        refine readLinks_eq ?_ left ?_ ends
        · exact fun behind less => ihTokens behind.length (length ▸ less) (level + 1) behind rfl
        · exact fun link mem => Nat.le_of_succ_le (links link mem)

end Levels

end CellFormula
