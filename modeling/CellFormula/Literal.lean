import CellFormula.Address.Reference
import CellFormula.Error
import CellFormula.Text.Blank

/-!
# Reading literals

The values that the sources of literal tokens stand for, and the addresses of references. Blanks
around them are ignored, and integers and floats may have a sign, though the lexer admits neither.
-/

namespace CellFormula

/-- The address that the source of a reference names. -/
def readReference (source : String) : Except FormulaError Address :=
  (Address.read source).mapError fun cause => .coordinates (.malformed cause)

namespace Value

def readInteger (text : String) : Except FormulaError Value :=
  match Integer.read (trim text.toList) with
  | .ok n => .ok (.integer n)
  | .error cause => .error (.type (.integerLiteral text cause))

def readFloat (text : String) : Except FormulaError Value :=
  match CellFormula.readFloat (trim text.toList) with
  | .ok x => .ok (.float x)
  | .error cause => .error (.type (.floatLiteral text cause))

/-- Accepts the words `true` and `false` in any case. -/
def readBoolean (text : String) : Except FormulaError Value :=
  let word := trim text.toList
  let lower := String.ofList (word.map Char.toLower)
  if lower = "true" then .ok (.boolean true)
  else if lower = "false" then .ok (.boolean false)
  else .error (.type (.booleanLiteral (String.ofList word)))

end Value

end CellFormula
