import CellFormula.Expr.Basic
import CellFormula.Grid
import CellFormula.Literal
import CellFormula.Operator.Fold
import CellFormula.Trace
import CellFormula.Tree.Basic

/-!
# Evaluating trees and expressions

Evaluation is strict and goes from left to right: an operator is applied only when all its operands
have values, also where the left one would settle the result. What other cells hold comes in as a
grid, for the addresses that are occupied, and a function that resolves an address to its value.
-/

namespace CellFormula

/-- Notes whether the left operand settles a logical operator alone. -/
def noteDecided (op : BinaryOp) (left : Value) : Traced Unit :=
  match op.decided? left with
  | some outcome => .emit (.decided op outcome)
  | none => .ok ()

@[simp] theorem result_noteDecided (op : BinaryOp) (left : Value) :
    (noteDecided op left).result = .ok () := by
  unfold noteDecided
  split <;> rfl

namespace Aggregate

/-- The value, if there is one and it is a number. -/
def number? : Except FormulaError Value → Option Value
  | .ok v => if v.isNumeric then some v else none
  | .error _ => none

/-- The number that was found at an address. A cell without a value, or with a value that is no
number, is skipped. -/
def numberAt (fn : Aggregate) (a : Address) (found : Traced Value) : Traced (Option Value) :=
  let skipped :=
    match found.result with
    | .ok v => if v.isNumeric then [] else [.skippedValue fn a v.type]
    | .error e => [.skippedError fn a e]
  ⟨found.events ++ skipped, .ok (number? found.result)⟩

/-- The numbers at the addresses, in order. -/
def numbersAt (fn : Aggregate) (resolve : Address → Traced Value) :
    List Address → Traced (List Value)
  | [] => return []
  | a :: rest => do
    let number ← fn.numberAt a (resolve a)
    let numbers ← fn.numbersAt resolve rest
    return number.toList ++ numbers

@[simp] theorem result_numberAt (fn : Aggregate) (a : Address) (found : Traced Value) :
    (fn.numberAt a found).result = .ok (number? found.result) := rfl

/-- Looking for numbers never fails, and finds them all in order. -/
theorem result_numbersAt (fn : Aggregate) (resolve : Address → Traced Value)
    (addresses : List Address) :
    (fn.numbersAt resolve addresses).result =
      .ok (addresses.filterMap fun a => number? (resolve a).result) := by
  induction addresses with
  | nil => rfl
  | cons a rest ih =>
    simp only [numbersAt, Traced.result_bind, result_numberAt, ih, Traced.result_pure,
      List.filterMap_cons]
    cases number? (resolve a).result <;> rfl

/-- The value of the function on a range in which these numbers were found. -/
def ofNumbers (fn : Aggregate) (range : Range) (numbers : List Value) :
    Except FormulaError Value :=
  match fn with
  | mean => do meanOf (← sum.fold numbers) range.spanProduct?
  | _ => fn.fold numbers

/-- The value of the function on a range of cells. -/
def evaluate (grid : Grid) (resolve : Address → Traced Value) (fn : Aggregate) (range : Range) :
    Traced Value := do
  let numbers ← fn.numbersAt resolve (grid.occupiedIn range)
  fn.ofNumbers range numbers

end Aggregate

/-- The value of a leaf. -/
def evaluateLeaf (resolve : Address → Traced Value) (kind : TokenKind) (source : String) :
    Traced Value :=
  match kind with
  | .integer => Value.readInteger source
  | .float => Value.readFloat source
  | .boolean => Value.readBoolean source
  | .string => .ok (.string source)
  | .reference => do resolve (← readReference source)
  | _ => .fail (.parse (.meaningless kind))

/-- The address of a tree that is the corner of a range. -/
def Tree.corner : Tree → Except FormulaError Address
  | .leaf .reference source => readReference source
  | other => .error (.parse (.badCorner other))

/-- The value of a tree. A node whose kind computes nothing fails before its operands do. -/
def Tree.evaluate (grid : Grid) (resolve : Address → Traced Value) : Tree → Traced Value
  | .leaf kind source => evaluateLeaf resolve kind source
  | .unary (.unary op) operand => do
    let v ← operand.evaluate grid resolve
    op.apply v
  | .unary kind _ => .fail (.parse (.meaningless kind))
  | .binary (.aggregate fn) start stop => do
    let start ← start.corner
    let stop ← stop.corner
    fn.evaluate grid resolve ⟨start, stop⟩
  | .binary (.binary op) left right => do
    let l ← left.evaluate grid resolve
    let r ← right.evaluate grid resolve
    noteDecided op l
    op.apply l r
  | .binary kind _ _ => .fail (.parse (.meaningless kind))

/-- The value of an expression. -/
def Expr.evaluate (grid : Grid) (resolve : Address → Traced Value) : Expr → Traced Value
  | .value v => .ok v
  | .reference a => resolve a
  | .unary op operand => do
    let v ← operand.evaluate grid resolve
    op.apply v
  | .binary op left right => do
    let l ← left.evaluate grid resolve
    noteDecided op l
    let r ← right.evaluate grid resolve
    op.apply l r
  | .aggregate fn range => fn.evaluate grid resolve range

end CellFormula
