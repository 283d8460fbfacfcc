/-!
# Decimal numerals

Numbers as runs of the ASCII digits. `value` reads a run and `digits` writes one, without leading
zeros; `value_digits` says that reading undoes writing.
-/

namespace CellFormula.Numeral

/-- The number that a decimal digit stands for. -/
def digitValue (c : Char) : Nat := c.toNat - '0'.toNat

/-- The digit that stands for a number below ten. -/
def digitChar (n : Nat) : Char := Char.ofNat ('0'.toNat + n)

/-- The number that a run of digits stands for, given the number read before it. -/
def valueFrom (read : Nat) (run : List Char) : Nat :=
  run.foldl (fun n c => 10 * n + digitValue c) read

/-- The number that a run of digits stands for. -/
def value (run : List Char) : Nat := valueFrom 0 run

/-- The digits of a number, without leading zeros. -/
def digits (n : Nat) : List Char :=
  if n < 10 then [digitChar n] else digits (n / 10) ++ [digitChar (n % 10)]

@[simp] theorem digitValue_digitChar {n : Nat} (small : n < 10) : digitValue (digitChar n) = n := by
  have all : ∀ k : Fin 10, digitValue (digitChar k) = k := by decide
  exact all ⟨n, small⟩

theorem isDigit_digitChar {n : Nat} (small : n < 10) : (digitChar n).isDigit = true := by
  have all : ∀ k : Fin 10, (digitChar k).isDigit = true := by decide
  exact all ⟨n, small⟩

theorem digits_ne_nil (n : Nat) : digits n ≠ [] := by
  unfold digits
  split <;> simp

theorem isDigit_of_mem_digits {n : Nat} {c : Char} (mem : c ∈ digits n) : c.isDigit = true := by
  fun_induction digits n with
  | case1 n small =>
    simp only [List.mem_singleton] at mem
    exact mem ▸ isDigit_digitChar small
  | case2 n large ih =>
    simp only [List.mem_append, List.mem_singleton] at mem
    rcases mem with mem | mem
    · exact ih mem
    · exact mem ▸ isDigit_digitChar (Nat.mod_lt _ (by decide))

theorem value_digits (n : Nat) : value (digits n) = n := by
  fun_induction digits n with
  | case1 n small => simp [value, valueFrom, small]
  | case2 n large ih =>
    have last : n % 10 < 10 := Nat.mod_lt _ (by decide)
    simp only [value, valueFrom] at ih
    simp [value, valueFrom, ih, last]
    omega

/-- The decimal text of a whole number. -/
def ofNat (n : Nat) : String := String.ofList (digits n)

/-- The decimal text of an integer, with a sign only if it is negative. -/
def ofInt (n : Int) : String :=
  if n < 0 then "-" ++ ofNat n.natAbs else ofNat n.natAbs

end CellFormula.Numeral
