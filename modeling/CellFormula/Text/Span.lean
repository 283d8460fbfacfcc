/-!
# Byte spans

Places in a formula are counted in bytes of its UTF-8 form, from its first byte.
-/

namespace CellFormula

/-- The number of bytes of the UTF-8 form of a text. -/
def byteLength (text : List Char) : Nat :=
  text.foldr (fun c n => c.utf8Size + n) 0

@[simp] theorem byteLength_nil : byteLength [] = 0 := rfl

@[simp] theorem byteLength_cons (c : Char) (text : List Char) :
    byteLength (c :: text) = c.utf8Size + byteLength text :=
  rfl

@[simp] theorem byteLength_append (left right : List Char) :
    byteLength (left ++ right) = byteLength left + byteLength right := by
  induction left with
  | nil => simp
  | cons c left ih => simp [ih, Nat.add_assoc]

/-- A half-open stretch of a formula: `stop` is the offset just past its last byte. -/
structure Span where
  start : Nat
  stop : Nat
deriving DecidableEq, Repr

/-- The span of a text that begins at byte `start`. -/
def Span.ofText (start : Nat) (text : List Char) : Span :=
  ⟨start, start + byteLength text⟩

end CellFormula
