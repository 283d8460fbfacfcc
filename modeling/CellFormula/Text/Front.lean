/-!
# The front of a text

Main statement: `stripFront?_eq_some_iff`, a text is the front that is taken off it and the rest.
-/

namespace CellFormula

/-- Takes a certain front off a text that begins with it. -/
def stripFront? : (front text : List Char) → Option (List Char)
  | [], text => some text
  | _ :: _, [] => none
  | c :: front, d :: text => if c = d then stripFront? front text else none

theorem stripFront?_eq_some_iff {front text rest : List Char} :
    stripFront? front text = some rest ↔ text = front ++ rest := by
  fun_induction stripFront? front text with
  | case1 text => simp
  | case2 c front => simp
  | case3 front d text ih => simp [ih]
  | case4 c front d text different => simp [Ne.symm different]

end CellFormula
