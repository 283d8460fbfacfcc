import CellFormula.Range

/-!
# Grids

A grid holds the text of a formula at each of finitely many addresses. The cells are kept in the
order of their addresses, so two grids with the same cells are equal, whatever their history.
`lookup` is the view: `lookup_insert` and `lookup_erase` say what the operations do to it.
-/

namespace CellFormula

/-- A stored formula, as text, and its place. -/
structure Cell where
  address : Address
  formula : String
deriving DecidableEq, Repr

def Cell.text (c : Cell) : String := c.address.text ++ " => " ++ c.formula

/-- Puts a cell into a list in the order of addresses, in place of the one at its address. -/
def insertCell (cell : Cell) : List Cell → List Cell
  | [] => [cell]
  | head :: tail =>
    if cell.address < head.address then cell :: head :: tail
    else if cell.address = head.address then cell :: tail
    else head :: insertCell cell tail

theorem mem_insertCell {cell c : Cell} {cells : List Cell} (mem : c ∈ insertCell cell cells) :
    c = cell ∨ c ∈ cells := by
  induction cells with
  | nil => exact Or.inl (by simpa [insertCell] using mem)
  | cons head tail ih =>
    unfold insertCell at mem
    split at mem
    · simpa using mem
    · split at mem
      · simp only [List.mem_cons] at mem ⊢
        exact mem.imp_right Or.inr
      · simp only [List.mem_cons] at mem ⊢
        rcases mem with mem | mem
        · exact Or.inr (Or.inl mem)
        · exact (ih mem).imp_right Or.inr

/-- The cells stand in the strict order of their addresses. -/
abbrev Ordered (cells : List Cell) : Prop :=
  cells.Pairwise fun a b => a.address < b.address

theorem ordered_insertCell {cell : Cell} {cells : List Cell} (ordered : Ordered cells) :
    Ordered (insertCell cell cells) := by
  induction cells with
  | nil => exact List.pairwise_singleton _ _
  | cons head tail ih =>
    obtain ⟨above, rest⟩ := List.pairwise_cons.1 ordered
    unfold insertCell
    split
    · next less =>
      refine List.pairwise_cons.2 ⟨fun c mem => ?_, ordered⟩
      rcases List.mem_cons.1 mem with rfl | mem
      · exact less
      · exact Address.lt_trans less (above c mem)
    · split
      · next equal => exact List.pairwise_cons.2 ⟨fun c mem => equal ▸ above c mem, rest⟩
      · next notLess different =>
        refine List.pairwise_cons.2 ⟨fun c mem => ?_, ih rest⟩
        rcases mem_insertCell mem with rfl | mem
        · exact Address.lt_of_not_lt_of_ne notLess different
        · exact above c mem

/-- The stored cells, one for each occupied address. -/
structure Grid where
  cells : List Cell
  ordered : Ordered cells

namespace Grid

/-- The grid without cells. -/
def empty : Grid := ⟨[], List.Pairwise.nil⟩

instance : EmptyCollection Grid := ⟨empty⟩

instance : Inhabited Grid := ⟨empty⟩

/-- The cell at an address. -/
def lookup (g : Grid) (a : Address) : Option Cell :=
  g.cells.find? fun c => c.address = a

/-- Whether there is a cell at the address. -/
def contains (g : Grid) (a : Address) : Bool := (g.lookup a).isSome

/-- The number of cells. -/
def size (g : Grid) : Nat := g.cells.length

/-- Stores a formula, in place of the one that was there. -/
def insert (g : Grid) (a : Address) (formula : String) : Grid :=
  ⟨insertCell ⟨a, formula⟩ g.cells, ordered_insertCell g.ordered⟩

/-- Removes the cell at an address. -/
def erase (g : Grid) (a : Address) : Grid :=
  ⟨g.cells.filter fun c => c.address ≠ a, g.ordered.filter _⟩

/-- The occupied addresses of a range, column by column. A range with no more addresses than the
grid has cells is walked; of a larger one the stored cells are looked through instead. -/
def occupiedIn (g : Grid) (r : Range) : List Address :=
  if r.count?.any (· ≤ g.size) then r.cells.filter g.contains
  else (g.cells.map Cell.address).filter (· ∈ r)

theorem find?_insertCell {cell : Cell} {cells : List Cell} {a : Address} :
    (insertCell cell cells).find? (fun c => c.address = a) =
      if cell.address = a then some cell else cells.find? fun c => c.address = a := by
  induction cells with
  | nil => by_cases here : cell.address = a <;> simp [insertCell, here]
  | cons head tail ih =>
    unfold insertCell
    split
    · by_cases here : cell.address = a <;> simp [here]
    · split
      · next equal =>
        by_cases here : cell.address = a
        · simp [here]
        · simp [here, ← equal]
      · next different =>
        by_cases here : cell.address = a
        · have : head.address ≠ a := fun equal => different (here.trans equal.symm)
          simp [this, ih, here]
        · by_cases there : head.address = a <;> simp [there, ih, here]

/-- A stored formula is found at its address, and the other addresses are as before. -/
theorem lookup_insert (g : Grid) (a b : Address) (formula : String) :
    (g.insert a formula).lookup b = if a = b then some ⟨a, formula⟩ else g.lookup b :=
  find?_insertCell

/-- Nothing is found at a removed address, and the other addresses are as before. -/
theorem lookup_erase (g : Grid) (a b : Address) :
    (g.erase a).lookup b = if a = b then none else g.lookup b := by
  unfold lookup erase
  rw [List.find?_filter]
  by_cases here : a = b
  · subst here
    simp
  · simp only [here, if_false]
    congr 1
    funext c
    by_cases there : c.address = b <;> simp [there, Ne.symm here]

end Grid

end CellFormula
