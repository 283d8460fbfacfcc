import CellFormula.Operator.Apply
import CellFormula.Proofs.Operator.Exact

/-!
# Types of operators

Each operator takes operands of certain types, and the types of the operands determine that of its
value. `BinaryOp.type?` and `UnaryOp.type?` are these rules. `Agrees` compares an outcome with a
type: if there is a type then the outcome is a value of it, or one of the faults that values can
still give rise to; if there is none then the outcome is an error.

Main statements: `BinaryOp.agrees_apply` and `UnaryOp.agrees_apply`, what an operator makes of two
values agrees with the type that it has at theirs.
-/

namespace CellFormula

namespace BinaryOp

/-- The types of which both operands may be. -/
def operandTypes : BinaryOp → List ValueType
  | add => [.integer, .float, .string]
  | subtract | multiply | divide | modulo | exponent => [.integer, .float]
  | and | or => [.boolean]
  | bitAnd | bitOr | bitXor | shiftLeft | shiftRight => [.integer]
  | lessThan | lessEqual | greaterThan | greaterEqual => [.integer, .float, .string]
  | equal | notEqual => [.integer, .float, .string, .boolean]

/-- The type of the value if both operands are of a type: comparisons return a truth value, and all
other operators stay with the type of their operands. -/
def resultType (op : BinaryOp) (operands : ValueType) : ValueType :=
  match op with
  | lessThan | lessEqual | greaterThan | greaterEqual | equal | notEqual => .boolean
  | _ => operands

/-- The type of the value at operands of these types, if the operator takes them. -/
def type? (op : BinaryOp) (left right : ValueType) : Option ValueType :=
  if left = right ∧ left ∈ op.operandTypes then some (op.resultType left) else none

end BinaryOp

/-- The type of the value at an operand of this type, if the operator takes it. -/
def UnaryOp.type? : UnaryOp → ValueType → Option ValueType
  | not, .boolean => some .boolean
  | bitNot, .integer => some .integer
  | toInteger, .float => some .integer
  | toFloat, .integer => some .float
  | _, _ => none

/-! ## Faults -/

/-- The error is due to the values of operands and not to their types. -/
inductive FormulaError.IsFault : FormulaError → Prop
  | divisionByZero (cause : DivisionError) : IsFault (.divisionByZero cause)
  | overflow (cause : OverflowError) : IsFault (.overflow cause)
  | negativeExponent {base exponent : Integer} (negative : exponent < 0) :
      IsFault (.operand (.negativeExponent base exponent))
  | noInteger {x : Float} (outside : x.isFinite = true → ¬ Integer.Fits (truncate x)) :
      IsFault (.operand (.noInteger x))

/-- The outcome is as the type says. -/
inductive Agrees (faults : FormulaError → Prop) :
    Except FormulaError Value → Option ValueType → Prop
  | value (v : Value) : Agrees faults (.ok v) (some v.type)
  | fault {e : FormulaError} (fault : faults e) (type : ValueType) :
      Agrees faults (.error e) (some type)
  | illTyped (e : FormulaError) : Agrees faults (.error e) none

namespace Agrees

variable {faults others : FormulaError → Prop} {x : Except FormulaError Value}
  {type : Option ValueType}

theorem type_eq_of_eq_ok (agrees : Agrees faults x type) (v : Value) (ok : x = .ok v) :
    type = some v.type := by
  cases agrees with
  | value w =>
    cases ok
    rfl
  | fault | illTyped => cases ok

theorem exists_error_of_type_eq_none (agrees : Agrees faults x type) (none : type = none) :
    ∃ e, x = .error e := by
  cases agrees with
  | illTyped e => exact ⟨e, rfl⟩
  | value | fault => cases none

theorem faults_of_eq_error {result : ValueType} {e : FormulaError} (agrees : Agrees faults x type)
    (typed : type = some result) (error : x = .error e) : faults e := by
  cases agrees with
  | fault fault =>
    cases error
    exact fault
  | value => cases error
  | illTyped => cases typed

theorem mono (agrees : Agrees faults x type) (weaker : ∀ e, faults e → others e) :
    Agrees others x type := by
  cases agrees with
  | value v => exact .value v
  | fault fault type => exact .fault (weaker _ fault) type
  | illTyped e => exact .illTyped e

/-- If two steps agree with their types, then so do they one after the other. -/
theorem bind {f : Value → Except FormulaError Value} {g : ValueType → Option ValueType}
    (first : Agrees faults x type) (next : ∀ v, Agrees faults (f v) (g v.type)) :
    Agrees faults (x >>= f) (type >>= g) := by
  cases first with
  | value v => exact next v
  | @fault e fault type =>
    show Agrees faults (.error e) (g type)
    cases g type with
    | none => exact .illTyped e
    | some result => exact .fault fault result
  | illTyped e => exact .illTyped e

end Agrees

/-- An exact operation returns an integer or overflows. -/
theorem IsExact.agrees {result : Except FormulaError Integer} {n : Int} (exact : IsExact result n) :
    Agrees FormulaError.IsFault (result.map .integer) (some .integer) := by
  by_cases fits : Integer.Fits n
  · obtain ⟨i, same⟩ := Integer.exists_toInt_eq fits
    rw [exact.1 i same]
    exact .value (.integer i)
  · obtain ⟨cause, overflows⟩ := exact.2 fits
    rw [overflows]
    exact .fault (.overflow cause) .integer

/-! ## Operators -/

namespace BinaryOp

variable {l r : Integer}

theorem agrees_divide :
    Agrees FormulaError.IsFault ((floorDiv l r).map .integer) (some .integer) := by
  by_cases zero : r.toInt = 0
  · rw [floorDiv, if_pos zero]
    exact .fault (.divisionByZero _) .integer
  · exact (isExact_floorDiv zero).agrees

theorem agrees_modulo :
    Agrees FormulaError.IsFault ((floorMod l r).map .integer) (some .integer) := by
  by_cases zero : r.toInt = 0
  · rw [floorMod, if_pos zero]
    exact .fault (.divisionByZero _) .integer
  · obtain ⟨rest, computed, _⟩ := exists_floorMod (l := l) zero
    rw [computed]
    exact .value (.integer rest)

theorem agrees_exponent :
    Agrees FormulaError.IsFault ((power l r).map .integer) (some .integer) := by
  by_cases negative : r.toInt < 0
  · have below : r < 0 := Int64.lt_iff_toInt_lt.2 negative
    simp only [power, if_pos negative]
    exact .fault (.negativeExponent below) .integer
  · exact (isExact_power (Int.not_lt.1 negative)).agrees

theorem agrees_applyIntegers (op : BinaryOp) (l r : Integer) :
    Agrees FormulaError.IsFault (op.applyIntegers l r) (op.type? .integer .integer) := by
  cases op with
  | add | subtract | multiply => exact isExact_fit.agrees
  | divide => exact agrees_divide
  | modulo => exact agrees_modulo
  | exponent => exact agrees_exponent
  | bitAnd => exact .value (.integer (l &&& r))
  | bitOr => exact .value (.integer (l ||| r))
  | bitXor => exact .value (.integer (l ^^^ r))
  | shiftLeft => exact isExact_shiftLeft.agrees
  | shiftRight => exact isExact_shiftRight.agrees
  | lessThan | lessEqual | greaterThan | greaterEqual | equal | notEqual =>
    exact .value (.boolean _)
  | and | or => exact .illTyped _

theorem agrees_applyFloats (op : BinaryOp) (x y : Float) :
    Agrees FormulaError.IsFault (op.applyFloats x y) (op.type? .float .float) := by
  cases op with
  | add | subtract | multiply | divide | modulo | exponent => exact .value (.float _)
  | lessThan | lessEqual | greaterThan | greaterEqual | equal | notEqual =>
    exact .value (.boolean _)
  | and | or | bitAnd | bitOr | bitXor | shiftLeft | shiftRight => exact .illTyped _

theorem agrees_applyBooleans (op : BinaryOp) (a b : Bool) :
    Agrees FormulaError.IsFault (op.applyBooleans a b) (op.type? .boolean .boolean) := by
  cases op with
  | and | or | equal | notEqual => exact .value (.boolean _)
  | _ => exact .illTyped _

theorem agrees_applyStrings (op : BinaryOp) (s t : String) :
    Agrees FormulaError.IsFault (op.applyStrings s t) (op.type? .string .string) := by
  cases op with
  | add => exact .value (.string _)
  | lessThan | lessEqual | greaterThan | greaterEqual | equal | notEqual =>
    exact .value (.boolean _)
  | _ => exact .illTyped _

theorem agrees_refuse (op : BinaryOp) {left right : ValueType} (apart : left ≠ right) :
    Agrees FormulaError.IsFault (.error (op.refuse left right)) (op.type? left right) := by
  rw [type?, if_neg fun taken => apart taken.1]
  exact .illTyped _

/-- What a binary operator makes of two values agrees with the type that it has at theirs. -/
theorem agrees_apply (op : BinaryOp) (left right : Value) :
    Agrees FormulaError.IsFault (op.apply left right) (op.type? left.type right.type) := by
  cases left with
  | integer m =>
    cases right with
    | integer n => exact op.agrees_applyIntegers m n
    | _ => exact op.agrees_refuse nofun
  | float x =>
    cases right with
    | float y => exact op.agrees_applyFloats x y
    | _ => exact op.agrees_refuse nofun
  | boolean a =>
    cases right with
    | boolean b => exact op.agrees_applyBooleans a b
    | _ => exact op.agrees_refuse nofun
  | string s =>
    cases right with
    | string t => exact op.agrees_applyStrings s t
    | _ => exact op.agrees_refuse nofun

end BinaryOp

/-- What a unary operator makes of a value agrees with the type that it has at that of the value. -/
theorem UnaryOp.agrees_apply (op : UnaryOp) (operand : Value) :
    Agrees FormulaError.IsFault (op.apply operand) (op.type? operand.type) := by
  cases op with
  | not =>
    cases operand with
    | boolean b => exact .value (.boolean !b)
    | _ => exact .illTyped _
  | bitNot =>
    cases operand with
    | integer n => exact .value (.integer (~~~n))
    | _ => exact .illTyped _
  | toInteger =>
    cases operand with
    | float x =>
      simp only [apply]
      split
      · next n _ => exact .value (.integer n)
      · next missing =>
        refine .fault (.noInteger fun finite => ?_) .integer
        rw [if_pos finite] at missing
        exact Integer.ofInt?_eq_none_iff.1 missing
    | _ => exact .illTyped _
  | toFloat =>
    cases operand with
    | integer n => exact .value (.float (CellFormula.toFloat n))
    | _ => exact .illTyped _

end CellFormula
