import CellFormula.Decimal.Basic

/-!
# Writing and reading floats

Floats are written in positional notation, never with an exponent. A whole float is written with
all its digits and `.0`, so that it stays distinct from an integer; any other float with the fewest
digits that read back. Reading accepts more: an exponent, a missing whole part or fraction, and the
words for infinity and for no number.
-/

namespace CellFormula

/-- The digits of a decimal with the point set. -/
def Decimal.positional (d : Decimal) : List Char :=
  let run := Numeral.digits d.digits
  let places := (-d.exponent).toNat
  if places = 0 then run ++ List.replicate d.exponent.toNat '0'
  else
    let padded := List.replicate (places + 1 - run.length) '0' ++ run
    let whole := padded.length - places
    padded.take whole ++ '.' :: padded.drop whole

/-- The text of a float whose finite magnitude is written by `magnitude`. -/
def signedText (x : Float) (magnitude : List Char) : String :=
  if x.isNaN then "NaN"
  else (if isNegative x then "-" else "") ++
    (if x.isInf then "inf" else String.ofList magnitude)

/-- The text of a float. -/
def floatText (x : Float) : String :=
  let exact := Binary.ofFloat x
  signedText x <|
    if exact.isWhole then Numeral.digits exact.floor ++ ['.', '0']
    else (Decimal.shortest x).positional

/-- The text of a float with the fewest digits, in which a whole float has no point. -/
def compactText (x : Float) : String :=
  signedText x (Decimal.shortest x).positional

/-- Why a text is no float. -/
inductive FloatError where
  | empty
  | invalid
deriving DecidableEq, Repr

def FloatError.message : FloatError → String
  | .empty => "cannot parse float from empty string"
  | .invalid => "invalid float literal"

/-- Reads at least one digit, up to the end of the text. -/
def readRun? (text : List Char) : Option Nat :=
  if text ≠ [] ∧ text.all Char.isDigit then some (Numeral.value text) else none

/-- Reads what may follow the digits of a float: nothing, or an exponent with an optional sign. -/
def readExponent? : List Char → Option Int
  | [] => some 0
  | mark :: rest =>
    if mark = 'e' ∨ mark = 'E' then
      match rest with
      | '-' :: run => (readRun? run).map fun n => -(n : Int)
      | '+' :: run => (readRun? run).map fun n => (n : Int)
      | run => (readRun? run).map fun n => (n : Int)
    else none

/-- Reads a decimal without a sign: digits with at most one point among them, at least one digit in
all, and an optional exponent. -/
def readDecimal? (text : List Char) : Option Decimal :=
  let whole := text.takeWhile Char.isDigit
  let afterWhole := text.dropWhile Char.isDigit
  let (fraction, rest) :=
    match afterWhole with
    | '.' :: more => (more.takeWhile Char.isDigit, more.dropWhile Char.isDigit)
    | _ => ([], afterWhole)
  if whole ++ fraction = [] then none
  else (readExponent? rest).map fun exponent =>
    ⟨Numeral.value (whole ++ fraction), exponent - fraction.length⟩

/-- Reads a float without a sign. The words are accepted in any case. -/
def readMagnitude? (text : List Char) : Option Float :=
  match readDecimal? text with
  | some decimal => some decimal.toFloat
  | none =>
    let word := String.ofList (text.map Char.toLower)
    if word = "inf" ∨ word = "infinity" then some (1.0 / 0.0)
    else if word = "nan" then some (0.0 / 0.0)
    else none

/-- Reads a float with an optional sign. -/
def readFloat (text : List Char) : Except FloatError Float :=
  let magnitude :=
    match text with
    | '-' :: body => (readMagnitude? body).map fun x => -x
    | '+' :: body => readMagnitude? body
    | body => readMagnitude? body
  match magnitude with
  | some x => .ok x
  | none => .error (if text = [] then .empty else .invalid)

end CellFormula
