import CellFormula.Decimal.Notation
import CellFormula.Proofs.Decimal.Shortest
import CellFormula.Proofs.Text.Run

/-!
# Floats written and read

A finite float is written as digits, a point and digits, and these stand for a decimal that is
rounded to the float.

Main statements: `exists_floatText`, the form of the text; `readFloat_floatText`, reading the text
of a finite float that is not negative gives the float again.
-/

namespace CellFormula

open Float.Model UnpackedFloat

/-! ## Digits with a point -/

/-- The digits before and after the point of a decimal. -/
structure Positional (whole fraction : List Char) (d : Decimal) : Prop where
  whole_ne_nil : whole ≠ []
  whole_digits : ∀ c ∈ whole, c.isDigit = true
  fraction_ne_nil : fraction ≠ []
  fraction_digits : ∀ c ∈ fraction, c.isDigit = true
  digits : Numeral.value (whole ++ fraction) = d.digits
  exponent : 0 - (fraction.length : Int) = d.exponent

variable {run : List Char}

theorem Numeral.value_zeros (n : Nat) :
    Numeral.value (List.replicate n '0' ++ run) = Numeral.value run := by
  induction n with
  | zero => rfl
  | succ n ih =>
    rw [List.replicate_succ, List.cons_append]
    exact ih

theorem Numeral.value_append_zero : Numeral.value (run ++ ['0']) = 10 * Numeral.value run := by
  rw [Numeral.value, Numeral.valueFrom, List.foldl_append]
  rfl

namespace Positional

variable {whole fraction : List Char} {d : Decimal}

/-- Reading digits with a point gives the decimal that they stand for. -/
theorem readDecimal?_eq (positional : Positional whole fraction d) :
    readDecimal? (whole ++ '.' :: fraction) = some d := by
  obtain ⟨wholeSome, wholeDigits, fractionSome, fractionDigits, digits, exponent⟩ := positional
  have stops : ∀ c ∈ ('.' :: fraction).head?, c.isDigit = false := by
    intro c mem
    cases mem
    rfl
  have taken : fraction.takeWhile Char.isDigit = fraction :=
    List.takeWhile_eq_self_iff.2 fractionDigits
  have dropped : fraction.dropWhile Char.isDigit = [] := List.dropWhile_eq_nil_iff.2 fractionDigits
  unfold readDecimal?
  simp only [takeWhile_run wholeDigits stops, dropWhile_run wholeDigits stops, taken, dropped]
  rw [if_neg (List.append_ne_nil_of_left_ne_nil wholeSome _)]
  simp only [readExponent?, Option.map_some, digits, exponent]

/-- A whole number has a zero after the point. -/
theorem of_whole (n : Nat) : Positional (Numeral.digits n) ['0'] ⟨10 * n, -1⟩ := by
  refine ⟨Numeral.digits_ne_nil n, fun _ => Numeral.isDigit_of_mem_digits, by decide, ?_, ?_, rfl⟩
  · intro c mem
    rw [List.mem_singleton.1 mem]
    rfl
  · rw [Numeral.value_append_zero, Numeral.value_digits]

/-- A decimal with places after the point is written with all of them. -/
theorem of_exponent_neg (negative : d.exponent < 0) :
    ∃ whole fraction, d.positional = whole ++ '.' :: fraction ∧ Positional whole fraction d := by
  obtain ⟨places, exponent⟩ : ∃ places : Nat, d.exponent = -(places : Int) :=
    exists_neg_of_le (Int.le_of_lt negative)
  have count : (-d.exponent).toNat = places := by omega
  have nonzero : places ≠ 0 := by omega
  have solid : ∀ c ∈ List.replicate (places + 1 - (Numeral.digits d.digits).length) '0' ++
      Numeral.digits d.digits, c.isDigit = true := by
    intro c mem
    rcases List.mem_append.1 mem with zero | digit
    · rw [List.eq_of_mem_replicate zero]
      rfl
    · exact Numeral.isDigit_of_mem_digits digit
  have padded : Numeral.value (List.replicate (places + 1 - (Numeral.digits d.digits).length) '0' ++
      Numeral.digits d.digits) = d.digits := by
    rw [Numeral.value_zeros, Numeral.value_digits]
  have long : places + 1 ≤ (List.replicate (places + 1 - (Numeral.digits d.digits).length) '0' ++
      Numeral.digits d.digits).length := by
    rw [List.length_append, List.length_replicate]
    omega
  rw [Decimal.positional]
  simp only [count, if_neg nonzero]
  -- the zeros in front leave at least one digit before the point
  generalize List.replicate (places + 1 - (Numeral.digits d.digits).length) '0' ++
    Numeral.digits d.digits = run at solid padded long
  have left : (run.take (run.length - places)).length = run.length - places := by
    rw [List.length_take]
    omega
  have right : (run.drop (run.length - places)).length = places := by
    rw [List.length_drop]
    omega
  refine ⟨_, _, rfl, ?_, fun c mem => solid c (List.mem_of_mem_take mem), ?_,
    fun c mem => solid c (List.mem_of_mem_drop mem), ?_, ?_⟩
  · exact List.ne_nil_of_length_pos (by omega)
  · exact List.ne_nil_of_length_pos (by omega)
  · rw [List.take_append_drop, padded]
  · rw [right, exponent]
    omega

end Positional

/-! ## Floats -/

/-- A finite float that is not negative is written by a decimal that is rounded to it. -/
theorem exists_floatText {x : Float} (finite : x.isFinite = true)
    (positive : isNegative x = false) :
    ∃ whole fraction d, (floatText x).toList = whole ++ '.' :: fraction ∧
      Positional whole fraction d ∧ d.toFloat = x := by
  obtain ⟨noNaN, noInf⟩ := isFinite_iff.1 finite
  have plain : ∀ magnitude, (signedText x magnitude).toList = magnitude := by
    intro magnitude
    rw [signedText, noNaN, noInf, positive]
    exact String.toList_ofList
  rw [floatText, plain]
  cases whole : (Binary.ofFloat x).isWhole with
  | true =>
    refine ⟨_, _, _, rfl, Positional.of_whole _, ?_⟩
    refine (Decimal.toFloat_exact finite ?_).trans (abs_of_not_negative finite positive)
    rw [← Binary.value_floor whole, Decimal.value]
    push_cast
    rw [zpow_neg_one]
    field_simp
  | false =>
    obtain ⟨before, after, text, positional⟩ :=
      Positional.of_exponent_neg (Decimal.exponent_shortest_neg finite whole)
    exact ⟨before, after, _, text, positional,
      (Decimal.toFloat_shortest finite).trans (abs_of_not_negative finite positive)⟩

/-- A text that is a decimal has no sign, and is read as the float nearest to the decimal. -/
theorem readFloat_of_readDecimal? {text : List Char} {d : Decimal}
    (read : readDecimal? text = some d) : readFloat text = .ok d.toFloat := by
  have magnitude : readMagnitude? text = some d.toFloat := by rw [readMagnitude?, read]
  unfold readFloat
  split
  · cases read
  · cases read
  · simp only [magnitude]

/-- A finite float that is not negative is read back from its text. -/
theorem readFloat_floatText {x : Float} (finite : x.isFinite = true)
    (positive : isNegative x = false) : readFloat (floatText x).toList = .ok x := by
  obtain ⟨whole, fraction, d, text, positional, rounded⟩ := exists_floatText finite positive
  rw [text, readFloat_of_readDecimal? positional.readDecimal?_eq, rounded]

end CellFormula
