import CellFormula.Address.Basic
import CellFormula.Text.Blank

/-!
# Reading references

A reference is a bracket, capital letters, a comma, blanks if any, digits and a bracket. One reader
serves whoever looks for references: the reader of addresses below, and the lexer, which is
stricter about brackets and blanks.
-/

namespace CellFormula

/-- The parts of a written reference. -/
structure Reference where
  opening : Char
  letters : List Char
  gap : List Char
  row : List Char
  closing : Char
deriving DecidableEq, Repr

namespace Reference

/-- Reads a reference at the front of a text. Returns it with the text that follows. -/
def read? : List Char → Option (Reference × List Char)
  | [] => none
  | opening :: text =>
    let letters := text.takeWhile Char.isUpper
    match text.dropWhile Char.isUpper with
    | ',' :: afterComma =>
      let gap := afterComma.takeWhile isBlank
      let afterGap := afterComma.dropWhile isBlank
      let row := afterGap.takeWhile Char.isDigit
      match afterGap.dropWhile Char.isDigit with
      | closing :: rest =>
        if letters ≠ [] ∧ row ≠ [] then some (⟨opening, letters, gap, row, closing⟩, rest)
        else none
      | [] => none
    | _ => none

/-- Whether the reference stands in braces, as formulas write it. -/
def isBraced (r : Reference) : Bool :=
  r.opening = '\x7b' ∧ r.closing = '\x7d'

/-- The characters of the reference, in order. -/
def spelling (r : Reference) : List Char :=
  r.opening :: r.letters ++ ',' :: r.gap ++ r.row ++ [r.closing]

/-- The address that the reference names. -/
def address (r : Reference) : Except AddressError Address := do
  let x ← Column.read r.letters
  match Integer.readDigits false 0 r.row with
  | .ok y => .ok ⟨x, y⟩
  | .error _ => .error (.rowTooLarge (String.ofList r.spelling))

end Reference

/-- Reads an address. Braces and parentheses are accepted, and blanks around the whole text. -/
def Address.read (text : String) : Except AddressError Address :=
  let trimmed := trim text.toList
  match Reference.read? trimmed with
  | some (r, []) =>
    if (r.opening = '\x7b' ∨ r.opening = '(') ∧ (r.closing = '\x7d' ∨ r.closing = ')') then
      r.address
    else .error (.malformed (String.ofList trimmed))
  | _ => .error (.malformed (String.ofList trimmed))

end CellFormula
