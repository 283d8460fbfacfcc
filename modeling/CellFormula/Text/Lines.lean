/-!
# Lines of text

Input arrives as bytes. It is cut into lines first, and each line is decoded by itself, so that one
line that is no text spoils none before it.
-/

namespace CellFormula

/-- The byte that ends a line. -/
def lineFeed : UInt8 := 10

/-- The lines of some bytes, without their ends. An end in the last place begins no further line. -/
def splitLines : List UInt8 → List (List UInt8)
  | [] => []
  | b :: rest =>
    if b = lineFeed then [] :: splitLines rest
    else
      match splitLines rest with
      | [] => [[b]]
      | line :: others => (b :: line) :: others

/-- The lines of some bytes, as text. A line whose bytes are no UTF-8 has none. -/
def decodeLines (bytes : ByteArray) : List (Option String) :=
  (splitLines bytes.toList).map fun line => String.fromUTF8? ⟨line.toArray⟩

end CellFormula
