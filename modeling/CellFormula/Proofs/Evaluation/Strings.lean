import CellFormula.Proofs.Evaluation.Aggregate
import CellFormula.Proofs.Evaluation.Natural
import CellFormula.Proofs.Expr.Tree
import CellFormula.Proofs.Token.Quotation

/-!
# Strings as values

A formula can hold strings with a quote in them, but none is ever its value. Such a string stands
behind a unary operator, which takes in all that follows, and unary operators return no strings. All
other strings are joined from strings without quotes.

Main statements: `IsTreeOf.unquoted`, in a tree such a string is below a unary operator;
`Tree.unquoted_of_evaluate`, so it does not get out of the tree; `Session.unquoted_spec`, every
string to which a formula is evaluated can be written as a formula.
-/

namespace CellFormula

/-! ## Trees -/

/-- No string in the tree has a quote in it, apart from those below a unary operator. -/
def Tree.Unquoted : Tree → Prop
  | leaf kind source => kind = .string → '"' ∉ source.toList
  | unary _ _ => True
  | binary (.binary _) left right => left.Unquoted ∧ right.Unquoted
  | binary _ _ _ => True

/-- A tree of tokens in which strings with quotes stand behind unary operators only. -/
theorem IsTreeOf.unquoted {tokens : List Token} {tree : Tree} (stands : IsTreeOf tokens tree)
    (guarded : Guarded tokens) : tree.Unquoted := by
  induction stands with
  | @atom token _ => exact fun isString mem => guarded.first token rfl ⟨isString, mem⟩
  | parens opens _ _ ih =>
    exact ih (.of_isChain guarded.left_of_append.others fun op => by simp [opens])
  | range named _ _ =>
    rw [named]
    trivial
  | unary _ _ _ => trivial
  | @binary left right sign op leftTree rightTree root _ _ ihLeft ihRight =>
    have behind : Guarded right :=
      .of_isChain (List.isChain_append.1 guarded.others).2.1 fun op => by simp [root.signed]
    rw [root.signed]
    exact ⟨ihLeft guarded.left_of_append, ihRight behind⟩

theorem Tree.unquoted_of_ofText {formula : String} {tree : Tree}
    (parsed : Tree.ofText formula = .ok tree) : tree.Unquoted := by
  obtain ⟨tokens, lexed, parsed⟩ := exists_of_bind_eq_ok parsed
  exact (ofTokens_eq_ok_iff.1 parsed).unquoted (guarded_lex lexed)

/-! ## Operators -/

/-- No unary operator returns a string. -/
theorem UnaryOp.apply_ne_string (op : UnaryOp) (operand : Value) (s : String) :
    op.apply operand ≠ .ok (.string s) := by
  unfold apply
  split
  · nofun
  · nofun
  · split <;> nofun
  · nofun
  · nofun

namespace BinaryOp

theorem applyIntegers_ne_string (op : BinaryOp) (m n : Integer) (s : String) :
    op.applyIntegers m n ≠ .ok (.string s) := by
  have mapped : ∀ x : Except FormulaError Integer, x.map Value.integer ≠ .ok (.string s) := by
    rintro (_ | _) <;> nofun
  cases op with
  | add | subtract | multiply | divide | modulo | exponent | shiftLeft | shiftRight =>
    exact mapped _
  | _ => nofun

theorem applyFloats_ne_string (op : BinaryOp) (x y : Float) (s : String) :
    op.applyFloats x y ≠ .ok (.string s) := by
  cases op <;> nofun

theorem applyBooleans_ne_string (op : BinaryOp) (a b : Bool) (s : String) :
    op.applyBooleans a b ≠ .ok (.string s) := by
  cases op <;> nofun

/-- The only strings that a binary operator returns are two strings joined. -/
theorem exists_of_apply_eq_string {op : BinaryOp} {left right : Value} {s : String}
    (found : op.apply left right = .ok (.string s)) :
    ∃ l r, left = .string l ∧ right = .string r ∧ s = l ++ r := by
  unfold apply at found
  split at found
  · exact absurd found (op.applyIntegers_ne_string _ _ s)
  · exact absurd found (op.applyFloats_ne_string _ _ s)
  · exact absurd found (op.applyBooleans_ne_string _ _ s)
  · next l r =>
    cases op <;> cases found
    exact ⟨l, r, rfl, rfl, rfl⟩
  · cases found

end BinaryOp

/-! ## Functions of a range -/

theorem isNumeric_addNumber {total value v : Value} (found : addNumber total value = .ok v) :
    v.isNumeric = true := by
  unfold addNumber at found
  split at found
  · next m n =>
    cases sum : fit m .add n (m.toInt + n.toInt) <;> rw [sum] at found <;> cases found
    rfl
  · cases found; rfl
  · cases found; rfl
  · cases found; rfl
  · cases found

theorem isNumeric_meanOf {total v : Value} {span : Option Integer}
    (found : meanOf total span = .ok v) : v.isNumeric = true := by
  unfold meanOf at found
  split at found
  · cases found
  · next span =>
    split at found
    · cases found
    · split at found
      · next n =>
        cases quotient : floorDiv n span <;> rw [quotient] at found <;> cases found
        rfl
      · cases found; rfl
      · cases found

/-- The greatest or least number is one of the numbers. -/
theorem extreme_mem (wanted : Ordering) (best : Value) (values : List Value) :
    extreme wanted best values ∈ best :: values := by
  induction values generalizing best with
  | nil => exact List.mem_cons_self
  | cons value rest ih =>
    rw [extreme]
    have mem := ih (if compareNumbers value best = some wanted then value else best)
    rcases List.mem_cons.1 mem with chosen | mem
    · rw [chosen]
      split <;> simp
    · exact List.mem_cons_of_mem _ (List.mem_cons_of_mem _ mem)

namespace Aggregate

variable {numbers : List Value} {v : Value}

theorem isNumeric_total {total : Value} (numeric : total.isNumeric = true)
    (found : numbers.foldlM addNumber total = .ok v) : v.isNumeric = true := by
  induction numbers generalizing total with
  | nil => cases found; exact numeric
  | cons value rest ih =>
    rw [List.foldlM_cons] at found
    obtain ⟨sum, added, found⟩ := exists_of_bind_eq_ok found
    exact ih (isNumeric_addNumber added) found

/-- Numbers are folded to numbers. -/
theorem isNumeric_fold {fn : Aggregate} (numeric : ∀ n ∈ numbers, n.isNumeric = true)
    (found : fn.fold numbers = .ok v) : v.isNumeric = true := by
  unfold fold at found
  split at found
  · exact isNumeric_total rfl found
  · exact isNumeric_total rfl found
  · cases found; exact numeric _ (extreme_mem ..)
  · cases found; exact numeric _ (extreme_mem ..)
  · cases found
  · cases found

theorem isNumeric_ofNumbers {fn : Aggregate} {range : Range}
    (numeric : ∀ n ∈ numbers, n.isNumeric = true) (found : fn.ofNumbers range numbers = .ok v) :
    v.isNumeric = true := by
  unfold ofNumbers at found
  split at found
  · obtain ⟨total, _, found⟩ := exists_of_bind_eq_ok found
    exact isNumeric_meanOf found
  · exact isNumeric_fold numeric found

theorem isNumeric_of_mem_collect {resolve : Address → Except FormulaError Value}
    {addresses : List Address} : ∀ n ∈ collect resolve addresses, n.isNumeric = true := by
  intro n mem
  rw [collect_eq_filterMap, List.mem_filterMap] at mem
  obtain ⟨a, _, number⟩ := mem
  unfold number? at number
  split at number
  · split at number
    · next numeric => cases number; exact numeric
    · cases number
  · cases number

/-- The value of a function of a range is a number. -/
theorem isNumeric_evaluate {fn : Aggregate} {grid : Grid} {resolve : Address → Traced Value}
    {range : Range} (found : (fn.evaluate grid resolve range).result = .ok v) :
    v.isNumeric = true := by
  rw [result_evaluate] at found
  exact isNumeric_ofNumbers isNumeric_of_mem_collect found

end Aggregate

/-! ## Evaluation -/

theorem Value.unquoted_of_isNumeric {v : Value} (numeric : v.isNumeric = true) : v.Unquoted := by
  cases v with
  | string s => cases numeric
  | _ => trivial

theorem Tree.unquoted_of_evaluateLeaf {grid : Grid} {resolve : Address → Traced Value}
    (resolves : ∀ a v, (resolve a).result = .ok v → v.Unquoted) {kind : TokenKind} {source : String}
    {v : Value} (unquoted : (leaf kind source).Unquoted)
    (found : ((leaf kind source).evaluate grid resolve).result = .ok v) : v.Unquoted := by
  cases kind with
  | integer =>
    rw [result_evaluate_integer, Value.readInteger] at found
    split at found <;> cases found
    trivial
  | float =>
    rw [result_evaluate_float, Value.readFloat] at found
    split at found <;> cases found
    trivial
  | boolean =>
    rw [result_evaluate_boolean, Value.readBoolean] at found
    split at found
    · cases found; trivial
    · split at found <;> cases found
      trivial
  | string =>
    cases found
    exact unquoted rfl
  | reference =>
    rw [result_evaluate_reference] at found
    obtain ⟨a, _, found⟩ := exists_of_bind_eq_ok found
    exact resolves a v found
  | _ => cases found

/-- The value of a tree has no quotes in it, if no value has to which an address is resolved. -/
theorem Tree.unquoted_of_evaluate {grid : Grid} {resolve : Address → Traced Value}
    (resolves : ∀ a v, (resolve a).result = .ok v → v.Unquoted) {tree : Tree} {v : Value}
    (unquoted : tree.Unquoted) (found : (tree.evaluate grid resolve).result = .ok v) :
    v.Unquoted := by
  induction tree generalizing v with
  | leaf kind source => exact unquoted_of_evaluateLeaf resolves unquoted found
  | unary kind operand _ =>
    cases kind with
    | unary op =>
      rw [result_evaluate_unary] at found
      obtain ⟨w, _, applied⟩ := exists_of_bind_eq_ok found
      cases v with
      | string s => exact absurd applied (op.apply_ne_string w s)
      | _ => trivial
    | _ => cases found
  | binary kind left right ihLeft ihRight =>
    cases kind with
    | binary op =>
      rw [result_evaluate_binary] at found
      obtain ⟨l, leftFound, found⟩ := exists_of_bind_eq_ok found
      obtain ⟨r, rightFound, applied⟩ := exists_of_bind_eq_ok found
      cases v with
      | string s =>
        obtain ⟨first, second, rfl, rfl, rfl⟩ := BinaryOp.exists_of_apply_eq_string applied
        have noQuote : '"' ∉ first.toList ∧ '"' ∉ second.toList :=
          ⟨ihLeft unquoted.1 leftFound, ihRight unquoted.2 rightFound⟩
        simpa [Value.Unquoted] using noQuote
      | _ => trivial
    | aggregate fn =>
      rw [result_evaluate_aggregate] at found
      obtain ⟨first, _, found⟩ := exists_of_bind_eq_ok found
      obtain ⟨last, _, found⟩ := exists_of_bind_eq_ok found
      exact Value.unquoted_of_isNumeric (Aggregate.isNumeric_evaluate found)
    | _ => cases found

theorem Context.unquoted_of_resolve {c : Context} {a : Address} {v : Value}
    (found : (c.resolve a).result = .ok v) : v.Unquoted := by
  induction c, a using Context.resolve.induct generalizing v with
  | case1 c a cause refused =>
    rw [resolve_of_refused refused] at found
    cases found
  | case2 c a formula inner entered ih =>
    rw [result_resolve, entered, ok_bind] at found
    obtain ⟨tree, parsed, found⟩ := exists_of_bind_eq_ok found
    exact Tree.unquoted_of_evaluate (fun b w => ih b) (Tree.unquoted_of_ofText parsed) found

namespace Session

theorem unquoted_of_evaluate {s : Session} {formula : String} {v : Value}
    (found : (s.evaluate formula).result = .ok v) : v.Unquoted := by
  rw [evaluate, Traced.result_bind, Traced.result_lift] at found
  obtain ⟨tree, parsed, found⟩ := exists_of_bind_eq_ok found
  exact Tree.unquoted_of_evaluate (fun a w => Context.unquoted_of_resolve)
    (Tree.unquoted_of_ofText parsed) found

/-- A string without quotes in it is the value of its text. -/
theorem result_evaluate_string {text : String} (unquoted : '"' ∉ text.toList) (s : Session) :
    (s.evaluate (Expr.value (.string text)).text).result = .ok (.string text) := by
  have parsed : Tree.ofText (Expr.value (.string text)).text = .ok (.leaf .string text) :=
    (Spells.string unquoted).group.ofText_eq
  rw [result_evaluate parsed]
  rfl

/-- If a formula is evaluated to a string, whatever the cells hold, then there is no quote in the
string, so that every session evaluates its text to it. And yet a formula that lexes can hold any
quotes in a string, behind a unary operator. -/
theorem unquoted_spec (s : Session) (formula : String) :
    (∀ text, (s.evaluate formula).result = .ok (.string text) →
      '"' ∉ text.toList ∧
        ∀ other : Session,
          (other.evaluate (Expr.value (.string text)).text).result = .ok (.string text)) ∧
    ∀ op (body : List Char), (∀ c ∈ body, isBlank c = false) →
      lex (String.ofList (op.symbol.toList ++ ('"' :: body ++ ['"']))) =
        .ok [unaryToken 0 op, stringToken body (byteLength op.symbol.toList)] := by
  refine ⟨fun text found => ?_, fun op body solid => lex_marked op solid⟩
  have unquoted : '"' ∉ text.toList := unquoted_of_evaluate found
  exact ⟨unquoted, result_evaluate_string unquoted⟩

/-- Two strings are joined, one of which is the value of a cell. Behind the exclamation mark there
is one string, with a quote in it. -/
theorem unquoted_spec_joined :
    let s := Session.mk ((∅ : Grid).insert ⟨1, 1⟩ "\"a b\"") 1
    ((s.evaluate "\x7bA,1\x7d + \"!\"").result = .ok (.string "a b!") ∧
      ∀ other : Session,
        (other.evaluate (Expr.value (.string "a b!")).text).result = .ok (.string "a b!")) ∧
    lex "!\"a\"b\"" = .ok [unaryToken 0 .not, stringToken ['a', '"', 'b'] 1] := by
  intro s
  have isReference : IsWordOf .reference "\x7bA,1\x7d".toList := by decide
  have stored : Tree.ofText "\"a b\"" = .ok (.leaf .string "a b") :=
    (Spells.string (show '"' ∉ "a b".toList by decide)).group.ofText_eq
  have parsed : Tree.ofText "\x7bA,1\x7d + \"!\"" =
      .ok (.binary (.binary .add) (.leaf .reference "\x7bA,1\x7d") (.leaf .string "!")) :=
    (Spells.binary .add (.atom rfl isReference.lexes)
      (.string (show '"' ∉ "!".toList by decide))).ofText_eq
  have value : FormulaHasValue s.grid "\x7bA,1\x7d + \"!\"" (.string "a b!") 1 :=
    ⟨_, parsed, .binary (.reference rfl (Grid.lookup_insert _ _ _ _) stored (.literal .string))
      (.literal .string) rfl⟩
  have found : (s.evaluate "\x7bA,1\x7d + \"!\"").result = .ok (.string "a b!") := by
    rw [result_evaluate_of_hasValue value]
    exact Context.outcome_of_le (Nat.le_refl 1)
  have solid : ∀ c ∈ ['a', '"', 'b'], isBlank c = false := by
    simp only [List.forall_mem_cons]
    exact ⟨rfl, rfl, rfl, nofun⟩
  obtain ⟨strings, marked⟩ := unquoted_spec s "\x7bA,1\x7d + \"!\""
  exact ⟨⟨found, (strings _ found).2⟩, marked .not _ solid⟩

end Session

end CellFormula
