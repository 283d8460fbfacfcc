import CellFormula.Proofs.Token.Tiling
import CellFormula.Session

/-!
# Where errors come from

A reference is refused when its address is vacant, when it is being resolved already, and when the
limit is reached. No step apart from `Context.enter` fails for these reasons. A computation raises
an error when it fails with it, and also when a range function skips a cell because of it.

Main statements: `Tree.raisesOnly_evaluate` and `Expr.raisesOnly_evaluate`, a refusal that is raised
anywhere in an evaluation is raised where an address is resolved; `Session.raisesOnly_handle`, and
so it is in the answer to a request.
-/

namespace CellFormula

variable {α β ε : Type}

/-- Whether the error says why a reference is not followed. -/
def FormulaError.isRefusal : FormulaError → Bool
  | .coordinates (.vacant _) | .circular _ | .depthLimit _ => true
  | _ => false

/-- If the step fails, it is for another reason than that a reference is refused. -/
def Unrefused (x : Except FormulaError α) : Prop := ∀ e, x = .error e → e.isRefusal = false

section Unrefused

@[simp] theorem unrefused_ok (a : α) : Unrefused (.ok a) := by
  rintro _ ⟨⟩

@[simp] theorem unrefused_error {e : FormulaError} :
    Unrefused (.error e : Except FormulaError α) ↔ e.isRefusal = false := by
  constructor
  · intro unrefused
    exact unrefused e rfl
  · rintro other _ ⟨⟩
    exact other

@[simp] theorem unrefused_map {x : Except FormulaError α} {f : α → β} :
    Unrefused (x.map f) ↔ Unrefused x := by
  cases x with
  | ok a => exact iff_of_true (unrefused_ok (f a)) (unrefused_ok a)
  | error e => exact unrefused_error.trans unrefused_error.symm

theorem Unrefused.bind {x : Except FormulaError α} {f : α → Except FormulaError β}
    (first : Unrefused x) (next : ∀ a, Unrefused (f a)) : Unrefused (x >>= f) := by
  cases x with
  | ok a => exact next a
  | error e => exact unrefused_error.2 (unrefused_error.1 first)

theorem unrefused_mapError (x : Except ε α) {f : ε → FormulaError}
    (other : ∀ e, (f e).isRefusal = false) : Unrefused (x.mapError f) := by
  cases x with
  | ok a => exact unrefused_ok a
  | error e => exact unrefused_error.2 (other e)

/-! ## Texts -/

theorem unrefused_lex (formula : String) : Unrefused (lex formula) := by
  unfold lex
  simp only
  split
  · split <;> simp [FormulaError.isRefusal]
  · have tokenized := tokenized_lexFrom 0 formula.toList
    cases answer : lexFrom 0 formula.toList with
    | ok tokens => exact unrefused_ok tokens
    | error e =>
      rw [answer] at tokenized
      obtain ⟨_, _, _, _, rfl⟩ := tokenized
      exact unrefused_error.2 rfl

theorem Tree.unrefused_ofTokens (tokens : List Token) : Unrefused (Tree.ofTokens tokens) :=
  unrefused_mapError _ fun _ => rfl

theorem Tree.unrefused_ofText (formula : String) : Unrefused (Tree.ofText formula) :=
  (unrefused_lex formula).bind Tree.unrefused_ofTokens

/-! ## Literals -/

theorem unrefused_readReference (source : String) : Unrefused (readReference source) :=
  unrefused_mapError _ fun _ => rfl

theorem Value.unrefused_readInteger (source : String) : Unrefused (Value.readInteger source) := by
  unfold readInteger
  split <;> simp [FormulaError.isRefusal]

theorem Value.unrefused_readFloat (source : String) : Unrefused (Value.readFloat source) := by
  unfold Value.readFloat
  split <;> simp [FormulaError.isRefusal]

theorem Value.unrefused_readBoolean (source : String) : Unrefused (Value.readBoolean source) := by
  unfold readBoolean
  simp only
  split
  · exact unrefused_ok _
  · split <;> simp [FormulaError.isRefusal]

theorem Tree.unrefused_corner (tree : Tree) : Unrefused tree.corner := by
  unfold corner
  split
  · exact unrefused_readReference _
  · exact unrefused_error.2 rfl

/-! ## Operators -/

section Integers

variable (left right base exponent n amount : Integer)

theorem unrefused_fit (op : BinaryOp) (total : Int) : Unrefused (fit left op right total) := by
  unfold fit
  split <;> simp [FormulaError.isRefusal]

theorem unrefused_floorDiv : Unrefused (floorDiv left right) := by
  unfold floorDiv
  split <;> simp [FormulaError.isRefusal, unrefused_fit]

theorem unrefused_floorMod : Unrefused (floorMod left right) := by
  unfold floorMod
  split <;> simp [FormulaError.isRefusal, unrefused_fit]

theorem unrefused_power : Unrefused (power base exponent) := by
  unfold power
  simp only
  split
  · exact unrefused_error.2 rfl
  · split
    · exact unrefused_fit base exponent _ _
    · split <;> simp [FormulaError.isRefusal, unrefused_fit]

theorem unrefused_shiftUp : Unrefused (shiftUp n amount) := by
  unfold shiftUp
  split
  · exact unrefused_ok 0
  · split <;> simp [FormulaError.isRefusal, unrefused_fit]

theorem unrefused_shiftDown : Unrefused (shiftDown n amount) := unrefused_fit n amount _ _

theorem unrefused_shiftLeft : Unrefused (shiftLeft n amount) := by
  unfold shiftLeft
  split
  · exact unrefused_shiftDown n _
  · exact unrefused_shiftUp n amount

theorem unrefused_shiftRight : Unrefused (shiftRight n amount) := by
  unfold shiftRight
  split
  · exact unrefused_shiftUp n _
  · exact unrefused_shiftDown n amount

end Integers

namespace BinaryOp

theorem unrefused_refuse (op : BinaryOp) (left right : ValueType) :
    (op.refuse left right).isRefusal = false := by
  cases op <;> rfl

theorem unrefused_applyIntegers (op : BinaryOp) (m n : Integer) :
    Unrefused (op.applyIntegers m n) := by
  cases op <;>
    simp [applyIntegers, unrefused_fit, unrefused_floorDiv, unrefused_floorMod, unrefused_power,
      unrefused_shiftLeft, unrefused_shiftRight, unrefused_refuse]

theorem unrefused_applyFloats (op : BinaryOp) (x y : Float) : Unrefused (op.applyFloats x y) := by
  cases op <;> simp [applyFloats, unrefused_refuse]

theorem unrefused_applyBooleans (op : BinaryOp) (a b : Bool) :
    Unrefused (op.applyBooleans a b) := by
  cases op <;> simp only [applyBooleans, unrefused_ok, unrefused_error, unrefused_refuse] <;> rfl

theorem unrefused_applyStrings (op : BinaryOp) (s t : String) :
    Unrefused (op.applyStrings s t) := by
  cases op <;> simp [applyStrings, unrefused_refuse]

theorem unrefused_apply (op : BinaryOp) (left right : Value) : Unrefused (op.apply left right) := by
  unfold apply
  split
  · exact op.unrefused_applyIntegers _ _
  · exact op.unrefused_applyFloats _ _
  · exact op.unrefused_applyBooleans _ _
  · exact op.unrefused_applyStrings _ _
  · exact unrefused_error.2 (op.unrefused_refuse _ _)

end BinaryOp

theorem UnaryOp.unrefused_apply (op : UnaryOp) (operand : Value) :
    Unrefused (op.apply operand) := by
  unfold apply
  split
  · exact unrefused_ok _
  · exact unrefused_ok _
  · split <;> simp [FormulaError.isRefusal]
  · exact unrefused_ok _
  · exact unrefused_error.2 rfl

/-! ## Folds -/

theorem unrefused_addNumber (total value : Value) : Unrefused (addNumber total value) := by
  unfold addNumber
  split <;> simp [FormulaError.isRefusal, unrefused_fit]
theorem unrefused_meanOf (total : Value) (span : Option Integer) :
    Unrefused (meanOf total span) := by
  unfold meanOf
  split
  · exact unrefused_error.2 rfl
  · split
    · exact unrefused_error.2 rfl
    · split <;> simp [FormulaError.isRefusal, unrefused_floorDiv]

namespace Aggregate

theorem unrefused_total (total : Value) (values : List Value) :
    Unrefused (values.foldlM addNumber total) := by
  induction values generalizing total with
  | nil => exact unrefused_ok total
  | cons value rest ih => exact (unrefused_addNumber total value).bind ih

theorem unrefused_fold (fn : Aggregate) (values : List Value) : Unrefused (fn.fold values) := by
  unfold fold
  split <;> simp [FormulaError.isRefusal, unrefused_total]

theorem unrefused_ofNumbers (fn : Aggregate) (range : Range) (numbers : List Value) :
    Unrefused (fn.ofNumbers range numbers) := by
  unfold ofNumbers
  split
  · exact (unrefused_fold _ _).bind fun total => unrefused_meanOf total _
  · exact unrefused_fold _ _

end Aggregate

end Unrefused

/-! ## Raised errors -/

/-- The error because of which a range function skipped a cell. -/
def Event.cause? : Event → Option FormulaError
  | .skippedError _ _ cause => some cause
  | _ => none

namespace Traced

/-- The computation fails with the error, or a range function in it skips a cell because of the
error. -/
def Raises (x : Traced α) (e : FormulaError) : Prop :=
  x.result = .error e ∨ ∃ event ∈ x.events, event.cause? = some e

/-- All errors that the computation raises have the property. -/
def RaisesOnly (x : Traced α) (p : FormulaError → Prop) : Prop := ∀ e, x.Raises e → p e

variable {p : FormulaError → Prop}

theorem raisesOnly_lift {x : Except FormulaError α} (known : ∀ e, x = .error e → p e) :
    (liftM x : Traced α).RaisesOnly p := by
  rintro e (failed | ⟨event, mem, _⟩)
  · exact known e failed
  · cases mem

theorem raisesOnly_ok (a : α) : (ok a).RaisesOnly p := by
  rintro e (⟨⟨⟩⟩ | ⟨event, mem, _⟩)
  cases mem

theorem raisesOnly_pure (a : α) : (pure a : Traced α).RaisesOnly p := raisesOnly_ok a

theorem raisesOnly_fail {cause : FormulaError} (known : p cause) :
    (fail cause : Traced α).RaisesOnly p :=
  raisesOnly_lift (x := .error cause) fun e same => by
    cases same
    exact known

theorem raisesOnly_emit {event : Event} (other : event.cause? = none) :
    (emit event).RaisesOnly p := by
  rintro e (⟨⟨⟩⟩ | ⟨_, mem, caused⟩)
  cases List.mem_singleton.1 mem
  rw [other] at caused
  cases caused

theorem RaisesOnly.bind {x : Traced α} {f : α → Traced β} (first : x.RaisesOnly p)
    (next : ∀ a, (f a).RaisesOnly p) : (x >>= f).RaisesOnly p := by
  rcases x with ⟨events, cause | a⟩
  · rintro e (⟨⟨⟩⟩ | skipped)
    · exact first cause (Or.inl rfl)
    · exact first e (Or.inr skipped)
  · rintro e (failed | ⟨event, mem, caused⟩)
    · exact next a e (Or.inl failed)
    · rcases List.mem_append.1 mem with mem | mem
      · exact first e (Or.inr ⟨event, mem, caused⟩)
      · exact next a e (Or.inr ⟨event, mem, caused⟩)

theorem RaisesOnly.map {x : Traced α} (only : x.RaisesOnly p) (f : α → β) :
    (f <$> x).RaisesOnly p := by
  rw [← bind_pure_comp]
  exact only.bind fun a => raisesOnly_ok (f a)

theorem RaisesOnly.mono {q : FormulaError → Prop} {x : Traced α} (only : x.RaisesOnly p)
    (weaker : ∀ e, p e → q e) : x.RaisesOnly q := fun e raised => weaker e (only e raised)

end Traced

/-! ## Refusals in an evaluation -/

/-- If the error is a refusal, it is raised where an address is resolved. -/
def RaisedBy (resolve : Address → Traced Value) (e : FormulaError) : Prop :=
  e.isRefusal = true → ∃ a, (resolve a).Raises e

section

variable (grid : Grid) (resolve : Address → Traced Value)
theorem raisedBy_of_other {e : FormulaError} (other : e.isRefusal = false) :
    RaisedBy resolve e := by
  intro refusal
  rw [other] at refusal
  cases refusal

theorem raisesOnly_resolve (a : Address) : (resolve a).RaisesOnly (RaisedBy resolve) :=
  fun _ raised _ => ⟨a, raised⟩

theorem Unrefused.raisesOnly {x : Except FormulaError α} (unrefused : Unrefused x) :
    (liftM x : Traced α).RaisesOnly (RaisedBy resolve) :=
  Traced.raisesOnly_lift fun e failed => raisedBy_of_other resolve (unrefused e failed)

theorem raisesOnly_noteDecided (op : BinaryOp) (left : Value) :
    (noteDecided op left).RaisesOnly (RaisedBy resolve) := by
  unfold noteDecided
  split
  · exact Traced.raisesOnly_emit rfl
  · exact Traced.raisesOnly_ok ()

/-! ### Range functions -/

namespace Aggregate

/-- A cell that is skipped hides its error only from the result. -/
theorem raisesOnly_numberAt (fn : Aggregate) (a : Address) {found : Traced Value}
    {p : FormulaError → Prop} (only : found.RaisesOnly p) :
    (fn.numberAt a found).RaisesOnly p := by
  rcases found with ⟨events, cause | v⟩
  · rintro e (⟨⟨⟩⟩ | ⟨event, mem, caused⟩)
    rcases List.mem_append.1 mem with mem | mem
    · exact only e (Or.inr ⟨event, mem, caused⟩)
    · cases List.mem_singleton.1 mem
      cases caused
      exact only cause (Or.inl rfl)
  · rintro e (⟨⟨⟩⟩ | ⟨event, mem, caused⟩)
    rcases List.mem_append.1 mem with mem | mem
    · exact only e (Or.inr ⟨event, mem, caused⟩)
    · cases numeric : v.isNumeric with
      | true => simp [numeric] at mem
      | false =>
        simp only [numeric] at mem
        cases List.mem_singleton.1 mem
        cases caused

theorem raisesOnly_numbersAt (fn : Aggregate) (addresses : List Address) :
    (fn.numbersAt resolve addresses).RaisesOnly (RaisedBy resolve) := by
  induction addresses with
  | nil => exact Traced.raisesOnly_ok []
  | cons a rest ih =>
    exact (fn.raisesOnly_numberAt a (raisesOnly_resolve resolve a)).bind fun number =>
      ih.bind fun numbers => Traced.raisesOnly_ok _

theorem raisesOnly_evaluate (fn : Aggregate) (range : Range) :
    (fn.evaluate grid resolve range).RaisesOnly (RaisedBy resolve) :=
  (fn.raisesOnly_numbersAt resolve _).bind fun numbers =>
    (fn.unrefused_ofNumbers range numbers).raisesOnly resolve

end Aggregate

/-! ### Trees and expressions -/

theorem raisesOnly_evaluateLeaf (kind : TokenKind) (source : String) :
    (evaluateLeaf resolve kind source).RaisesOnly (RaisedBy resolve) := by
  unfold evaluateLeaf
  split
  · exact (Value.unrefused_readInteger source).raisesOnly resolve
  · exact (Value.unrefused_readFloat source).raisesOnly resolve
  · exact (Value.unrefused_readBoolean source).raisesOnly resolve
  · exact Traced.raisesOnly_ok _
  · exact ((unrefused_readReference source).raisesOnly resolve).bind (raisesOnly_resolve resolve)
  · exact Traced.raisesOnly_fail (raisedBy_of_other resolve rfl)

/-- A refusal that is raised in a tree is raised where an address is resolved. -/
theorem Tree.raisesOnly_evaluate (tree : Tree) :
    (tree.evaluate grid resolve).RaisesOnly (RaisedBy resolve) := by
  fun_induction Tree.evaluate grid resolve tree with
  | case1 kind source => exact raisesOnly_evaluateLeaf resolve kind source
  | case2 op operand ih => exact ih.bind fun v => (op.unrefused_apply v).raisesOnly resolve
  | case3 => exact Traced.raisesOnly_fail (raisedBy_of_other resolve rfl)
  | case4 fn start stop =>
    exact (start.unrefused_corner.raisesOnly resolve).bind fun a =>
      (stop.unrefused_corner.raisesOnly resolve).bind fun b =>
        fn.raisesOnly_evaluate grid resolve ⟨a, b⟩
  | case5 op left right ihLeft ihRight =>
    exact ihLeft.bind fun l => ihRight.bind fun r =>
      (raisesOnly_noteDecided resolve op l).bind fun _ =>
        (op.unrefused_apply l r).raisesOnly resolve
  | case6 => exact Traced.raisesOnly_fail (raisedBy_of_other resolve rfl)

/-- A refusal that is raised in an expression is raised where an address is resolved. -/
theorem Expr.raisesOnly_evaluate (expr : Expr) :
    (expr.evaluate grid resolve).RaisesOnly (RaisedBy resolve) := by
  induction expr with
  | value v => exact Traced.raisesOnly_ok v
  | reference a => exact raisesOnly_resolve resolve a
  | unary op operand ih => exact ih.bind fun v => (op.unrefused_apply v).raisesOnly resolve
  | binary op left right ihLeft ihRight =>
    exact ihLeft.bind fun l => (raisesOnly_noteDecided resolve op l).bind fun _ =>
      ihRight.bind fun r => (op.unrefused_apply l r).raisesOnly resolve
  | aggregate fn range => exact fn.raisesOnly_evaluate grid resolve range

end

/-- A refusal that is raised when an address is resolved is raised in the context that is
entered. -/
theorem Context.raisesOnly_resolve_of_entered {c inner : Context} {a : Address} {formula : String}
    (entered : c.enter a = .ok (formula, inner)) :
    (c.resolve a).RaisesOnly (RaisedBy inner.resolve) := by
  rw [Context.resolve_of_entered entered]
  exact ((Tree.unrefused_ofText formula).raisesOnly inner.resolve).bind fun tree =>
    (tree.raisesOnly_evaluate inner.grid inner.resolve).bind fun v =>
      (Traced.raisesOnly_emit rfl).bind fun _ => Traced.raisesOnly_pure v

/-! ## Refusals in an answer -/

namespace Session

/-- What is answered to a formula that is run, whether the session goes on changed or not. -/
theorem run_fst (s : Session) (formula : String) : (s.run formula).1 = s.outcome formula := by
  unfold run
  simp only
  split <;> rfl

variable (s : Session)

theorem raisesOnly_outcome (formula : String) :
    (s.outcome formula).RaisesOnly (RaisedBy s.root.resolve) := by
  unfold outcome
  refine ((unrefused_lex formula).raisesOnly _).bind fun tokens =>
    (Traced.raisesOnly_emit rfl).bind fun _ => ?_
  split
  · next a body _ =>
    exact (Traced.raisesOnly_emit rfl).bind fun _ =>
      Traced.raisesOnly_pure (Outcome.assigned a body)
  · refine ((Tree.unrefused_ofTokens tokens).raisesOnly _).bind fun tree =>
      (Traced.raisesOnly_emit rfl).bind fun _ => ?_
    exact (tree.raisesOnly_evaluate s.grid s.root.resolve).bind fun v =>
      (Traced.raisesOnly_emit rfl).bind fun _ => Traced.raisesOnly_pure (Outcome.value v)

/-- A refusal that is raised in the answer to a request is raised where an address is resolved. -/
theorem raisesOnly_handle (request : Request) :
    (s.handle request).1.RaisesOnly (RaisedBy s.root.resolve) := by
  cases request with
  | run formula =>
    have answer := (s.raisesOnly_outcome formula).map Reply.outcome
    rw [← run_fst] at answer
    exact answer
  | evaluate formula =>
    exact (((Tree.unrefused_ofText formula).raisesOnly _).bind fun tree =>
      tree.raisesOnly_evaluate s.grid s.root.resolve).map _
  | evaluateTree tree => exact (tree.raisesOnly_evaluate s.grid s.root.resolve).map _
  | evaluateExpr expr => exact (expr.raisesOnly_evaluate s.grid s.root.resolve).map _
  | resolve a => exact (raisesOnly_resolve s.root.resolve a).map _
  | store a _ | insert a _ | erase a => exact Traced.raisesOnly_ok _

end Session

end CellFormula
