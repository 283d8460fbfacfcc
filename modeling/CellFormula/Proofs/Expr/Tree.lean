import CellFormula.Expr.Text
import CellFormula.Literal
import CellFormula.Proofs.Address.Reference

/-!
# The tree of an expression

The tree that the text of an expression is meant for, built from the expression itself: `Expr.text`
writes formulas and `Tree.ofText` reads them, and `Expr.tree` refers to neither.
-/

namespace CellFormula

namespace Value

/-- The tree of a value: a leaf, or the arithmetic that stands for a value without a literal. -/
def tree : Value → Tree
  | .integer n =>
    let zero := Tree.leaf .integer "0"
    if n = Int64.minValue then
      .binary (.binary .subtract)
        (.binary (.binary .subtract) zero (.leaf .integer "9223372036854775807"))
        (.leaf .integer "1")
    else if n.toInt < 0 then
      .binary (.binary .subtract) zero (.leaf .integer (Numeral.ofNat n.toInt.natAbs))
    else .leaf .integer (Numeral.ofNat n.toInt.natAbs)
  | .float x =>
    let zero := Tree.leaf .float "0.0"
    let infinity := Tree.binary (.binary .divide) (.leaf .float "1.0") zero
    if x.isNaN then .binary (.binary .divide) zero zero
    else if x.isInf then
      if isNegative x then .binary (.binary .subtract) zero infinity else infinity
    else if isNegative x then .binary (.binary .subtract) zero (.leaf .float (floatText (-x)))
    else .leaf .float (floatText x)
  | .boolean b => .leaf .boolean (if b then "True" else "False")
  | .string s => .leaf .string s

/-- The value has no quote in it, so that it can be written between quotes. -/
def Unquoted : Value → Prop
  | .string s => '"' ∉ s.toList
  | _ => True

instance : (v : Value) → Decidable v.Unquoted
  | .string s => inferInstanceAs (Decidable ('"' ∉ s.toList))
  | .integer _ | .float _ | .boolean _ => inferInstanceAs (Decidable True)

end Value

namespace Expr

/-- The tree of an expression. -/
def tree : Expr → Tree
  | value v => v.tree
  | reference a => .leaf .reference a.text
  | unary op operand => .unary (.unary op) operand.tree
  | binary op left right => .binary (.binary op) left.tree right.tree
  | aggregate fn range =>
    .binary (.aggregate fn) (.leaf .reference range.start.text) (.leaf .reference range.stop.text)

/-- The values in an expression, from left to right. -/
def values : Expr → List Value
  | value v => [v]
  | unary _ operand => operand.values
  | binary _ left right => left.values ++ right.values
  | reference _ | aggregate _ _ => []

/-- The addresses in an expression, from left to right. -/
def addresses : Expr → List Address
  | value _ => []
  | reference a => [a]
  | unary _ operand => operand.addresses
  | binary _ left right => left.addresses ++ right.addresses
  | aggregate _ range => [range.start, range.stop]

/-- No string in the expression has a quote in it. -/
def Unquoted (e : Expr) : Prop := ∀ v ∈ e.values, v.Unquoted

/-- All addresses in the expression have a reference form. -/
def Referable (e : Expr) : Prop := ∀ a ∈ e.addresses, a.Referable

instance (e : Expr) : Decidable e.Unquoted :=
  inferInstanceAs (Decidable (∀ v ∈ e.values, v.Unquoted))

instance (e : Expr) : Decidable e.Referable :=
  inferInstanceAs (Decidable (∀ a ∈ e.addresses, a.Referable))

section Parts

variable {op : UnaryOp} {sign : BinaryOp} {operand left right : Expr}

theorem unquoted_unary : (unary op operand).Unquoted ↔ operand.Unquoted := Iff.rfl

theorem unquoted_binary :
    (binary sign left right).Unquoted ↔ left.Unquoted ∧ right.Unquoted :=
  List.forall_mem_append

theorem referable_unary : (unary op operand).Referable ↔ operand.Referable := Iff.rfl

theorem referable_binary :
    (binary sign left right).Referable ↔ left.Referable ∧ right.Referable :=
  List.forall_mem_append

theorem referable_reference {a : Address} : (reference a).Referable ↔ a.Referable :=
  List.forall_mem_singleton

theorem referable_aggregate {fn : Aggregate} {range : Range} :
    (aggregate fn range).Referable ↔ range.start.Referable ∧ range.stop.Referable := by
  simp [Referable, addresses]

end Parts

end Expr

end CellFormula
