import CellFormula.Integer

/-!
# Column letters

Columns are numbered from one and written in letters: `A` to `Z`, then `AA`, `AB` and so on. This
is base 26 with the digits 1 to 26, so every column has exactly one spelling.
-/

namespace CellFormula

/-- Why a text is no cell address. -/
inductive AddressError where
  | noLetters
  | invalidLetter (c : Char)
  | columnTooLarge (letters : String)
  | rowTooLarge (text : String)
  | malformed (text : String)
deriving DecidableEq, Repr

def AddressError.message (e : AddressError) : String :=
  "Invalid cell address: " ++
    match e with
    | .noLetters => "empty column letters"
    | .invalidLetter c => "invalid column letter '" ++ c.toString ++ "'"
    | .columnTooLarge letters => "column too large: " ++ letters
    | .rowTooLarge text => "row number too large in '" ++ text ++ "'"
    | .malformed text => "'" ++ text ++ "'"

namespace Column

/-- The number of a capital letter, from one. -/
def letterValue (c : Char) : Nat := c.toNat - 'A'.toNat + 1

/-- The capital letter that is `n` places after `A`. -/
def letterChar (n : Nat) : Char := Char.ofNat ('A'.toNat + n)

/-- The letters of a number; none for zero. -/
def lettersOfNat (n : Nat) : List Char :=
  if n = 0 then [] else lettersOfNat ((n - 1) / 26) ++ [letterChar ((n - 1) % 26)]
termination_by n
decreasing_by omega

/-- The letters of a column, if it has any: columns below one have none. -/
def letters? (column : Integer) : Option String :=
  if 1 ≤ column.toInt then some (String.ofList (lettersOfNat column.toInt.toNat)) else none

/-- Reads letters to the right of those already read into `read`. -/
def readFrom (whole : List Char) (read : Integer) : List Char → Except AddressError Integer
  | [] => .ok read
  | c :: rest =>
    if c.isUpper then
      match Integer.ofInt? (26 * read.toInt + letterValue c) with
      | some next => readFrom whole next rest
      | none => .error (.columnTooLarge (String.ofList whole))
    else .error (.invalidLetter c)

/-- The column that the letters stand for. The first fault from the left is the one reported. -/
def read (letters : List Char) : Except AddressError Integer :=
  if letters = [] then .error .noLetters else readFrom letters 0 letters

end Column

end CellFormula
