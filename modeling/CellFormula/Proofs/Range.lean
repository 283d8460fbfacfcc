import CellFormula.Proofs.Integer
import CellFormula.Range
import Mathlib.Algebra.Group.Nat.Defs
import Mathlib.Data.List.Sort

/-!
# The walk through a range

The walk goes from each address of a range to the one that follows it in the order of addresses.

Main statements: `mem_cells` and `pairwise_cells`, the walk meets exactly the addresses of the
range, in strictly increasing order; `cells_eq_columns`, so it goes through the columns from the
left, and through each of them from the top; `cells_spec`, which adds where the walk begins and
ends, that its steps stay within the integers, and that the addresses are counted right.
-/

namespace CellFormula

/-! ## Integers in a row -/

namespace Integer

theorem toInt_min (i j : Integer) : (min i j).toInt = min i.toInt j.toInt := by
  change (if i ≤ j then i else j).toInt = _
  split
  · next below => rw [Int.min_eq_left (Int64.le_iff_toInt_le.1 below)]
  · next above => rw [Int.min_eq_right (by rw [Int64.le_iff_toInt_le] at above; omega)]

theorem toInt_max (i j : Integer) : (max i j).toInt = max i.toInt j.toInt := by
  change (if i ≤ j then j else i).toInt = _
  split
  · next below => rw [Int.max_eq_right (Int64.le_iff_toInt_le.1 below)]
  · next above => rw [Int.max_eq_left (by rw [Int64.le_iff_toInt_le] at above; omega)]

/-- The integers from the first to the last, increasing. -/
def between (first last : Integer) : List Integer :=
  (List.range (last.toInt - first.toInt + 1).toNat).map fun n : Nat => Int64.ofInt (first.toInt + n)

variable {first last : Integer}

theorem toInt_ofInt_add {n : Nat} (inside : n < (last.toInt - first.toInt + 1).toNat) :
    (Int64.ofInt (first.toInt + n)).toInt = first.toInt + n := by
  have := first.le_toInt
  have := last.toInt_lt
  exact Int64.toInt_ofInt_of_le (by omega) (by omega)

theorem mem_between {i : Integer} : i ∈ between first last ↔ first ≤ i ∧ i ≤ last := by
  simp only [between, List.mem_map, List.mem_range, Int64.le_iff_toInt_le]
  constructor
  · rintro ⟨n, inside, rfl⟩
    rw [toInt_ofInt_add inside]
    omega
  · rintro ⟨above, below⟩
    have inside : (i.toInt - first.toInt).toNat < (last.toInt - first.toInt + 1).toNat := by omega
    refine ⟨_, inside, Int64.toInt_inj.1 ?_⟩
    rw [toInt_ofInt_add inside]
    omega

theorem pairwise_between : (between first last).Pairwise (· < ·) := by
  refine List.pairwise_map.2 (List.Pairwise.imp_of_mem ?_ List.pairwise_lt_range)
  intro m n memM memN less
  rw [List.mem_range] at memM memN
  rw [Int64.lt_iff_toInt_lt, toInt_ofInt_add memM, toInt_ofInt_add memN]
  omega

theorem length_between (first last : Integer) :
    (between first last).length = (last.toInt - first.toInt + 1).toNat := by
  rw [between, List.length_map, List.length_range]

end Integer

/-! ## The order of addresses -/

namespace Address

instance : Std.Irrefl (fun a b : Address => a < b) := ⟨lt_irrefl⟩

instance : Std.Antisymm (fun a b : Address => a < b) :=
  ⟨fun a _ below above => absurd (lt_trans below above) (lt_irrefl a)⟩

theorem nodup_of_pairwise_lt {addresses : List Address} (ordered : addresses.Pairwise (· < ·)) :
    addresses.Nodup := by
  refine ordered.imp ?_
  rintro a _ less rfl
  exact a.lt_irrefl less

/-- Two strictly increasing lists with the same addresses are equal. -/
theorem eq_of_pairwise_lt {left right : List Address} (leftOrdered : left.Pairwise (· < ·))
    (rightOrdered : right.Pairwise (· < ·)) (same : ∀ a, a ∈ left ↔ a ∈ right) : left = right :=
  leftOrdered.eq_of_mem_iff rightOrdered same

end Address

namespace Range

variable {r : Range} {a b c : Address}

/-! ## Addresses of a range -/

theorem mem_iff_toInt : a ∈ r ↔
    (r.topLeft.x.toInt ≤ a.x.toInt ∧ a.x.toInt ≤ r.bottomRight.x.toInt) ∧
      (r.topLeft.y.toInt ≤ a.y.toInt ∧ a.y.toInt ≤ r.bottomRight.y.toInt) := by
  simp only [← Int64.le_iff_toInt_le]
  exact Iff.rfl

/-- The rectangle is not empty: both its corners belong to it. -/
theorem corners_toInt (r : Range) : r.topLeft.x.toInt ≤ r.bottomRight.x.toInt ∧
    r.topLeft.y.toInt ≤ r.bottomRight.y.toInt := by
  simp only [topLeft, bottomRight, Integer.toInt_min, Integer.toInt_max]
  omega

theorem topLeft_mem (r : Range) : r.topLeft ∈ r := by
  have := corners_toInt r
  rw [mem_iff_toInt]
  omega

theorem not_lt_topLeft (inside : a ∈ r) : ¬ a < r.topLeft := by
  rw [mem_iff_toInt] at inside
  rw [Address.lt_iff_toInt]
  omega

theorem bottomRight_mem (r : Range) : r.bottomRight ∈ r := by
  have := corners_toInt r
  rw [mem_iff_toInt]
  omega

theorem not_bottomRight_lt (inside : a ∈ r) : ¬ r.bottomRight < a := by
  rw [mem_iff_toInt] at inside
  rw [Address.lt_iff_toInt]
  omega

/-! ## One step of the walk -/

/-- A step goes to an address of the range, and leaves none out. -/
theorem of_next?_eq_some (step : r.next? a = some b) (inside : a ∈ r) :
    b ∈ r ∧ a < b ∧ ∀ c ∈ r, a < c → ¬ c < b := by
  have := corners_toInt r
  simp only [mem_iff_toInt, Address.lt_iff_toInt] at *
  unfold next? at step
  split at step
  · next below =>
    cases step
    simp only [toInt_add_one below]
    rw [Int64.lt_iff_toInt_lt] at below
    exact ⟨by omega, Or.inr ⟨trivial, by omega⟩, fun c other above => by omega⟩
  · next bottom =>
    rw [Int64.lt_iff_toInt_lt] at bottom
    split at step
    · next left =>
      cases step
      simp only [toInt_add_one left]
      rw [Int64.lt_iff_toInt_lt] at left
      exact ⟨by omega, Or.inl (by omega), fun c other above => by omega⟩
    · cases step

theorem of_next?_eq_none (stops : r.next? a = none) (other : c ∈ r) : ¬ a < c := by
  simp only [mem_iff_toInt, Address.lt_iff_toInt] at *
  unfold next? at stops
  split at stops
  · cases stops
  · next bottom =>
    split at stops
    · cases stops
    · next right =>
      rw [Int64.lt_iff_toInt_lt] at bottom right
      omega

/-- A step goes to the next row, or to the top of the next column. Neither number ever wraps
around. -/
theorem toInt_of_next?_eq_some (step : r.next? a = some b) :
    b.x = a.x ∧ b.y.toInt = a.y.toInt + 1 ∨ b.x.toInt = a.x.toInt + 1 ∧ b.y = r.topLeft.y := by
  unfold next? at step
  split at step
  · next below =>
    cases step
    exact Or.inl ⟨rfl, toInt_add_one below⟩
  · split at step
    · next left =>
      cases step
      exact Or.inr ⟨toInt_add_one left, rfl⟩
    · cases step

/-! ## The whole walk -/

theorem cellsFrom_of_next? (step : r.next? a = some b) : r.cellsFrom a = a :: r.cellsFrom b := by
  rw [cellsFrom]
  split
  · next stops => rw [step] at stops; cases stops
  · next same => rw [step] at same; cases same; rfl

theorem cellsFrom_of_last (stops : r.next? a = none) : r.cellsFrom a = [a] := by
  rw [cellsFrom]
  split
  · rfl
  · next step => rw [stops] at step; cases step

theorem mem_cellsFrom (inside : a ∈ r) : c ∈ r.cellsFrom a ↔ c ∈ r ∧ ¬ c < a := by
  induction a using cellsFrom.induct r with
  | case1 a ih =>
    cases step : r.next? a with
    | none =>
      rw [cellsFrom_of_last step, List.mem_singleton]
      constructor
      · rintro rfl
        exact ⟨inside, Address.lt_irrefl c⟩
      · rintro ⟨other, notBefore⟩
        by_contra different
        exact of_next?_eq_none step other
          (Address.lt_of_not_lt_of_ne notBefore different)
    | some b =>
      obtain ⟨next, above, nearest⟩ := of_next?_eq_some step inside
      rw [cellsFrom_of_next? step, List.mem_cons, ih b step next]
      constructor
      · rintro (rfl | ⟨other, notBefore⟩)
        · exact ⟨inside, Address.lt_irrefl c⟩
        · exact ⟨other, fun before => notBefore (Address.lt_trans before above)⟩
      · rintro ⟨other, notBefore⟩
        by_cases same : c = a
        · exact Or.inl same
        · exact Or.inr ⟨other, nearest c other (Address.lt_of_not_lt_of_ne notBefore same)⟩

theorem pairwise_cellsFrom (inside : a ∈ r) : (r.cellsFrom a).Pairwise (· < ·) := by
  induction a using cellsFrom.induct r with
  | case1 a ih =>
    cases step : r.next? a with
    | none =>
      rw [cellsFrom_of_last step]
      exact List.pairwise_singleton _ a
    | some b =>
      obtain ⟨next, above, _⟩ := of_next?_eq_some step inside
      rw [cellsFrom_of_next? step]
      refine List.pairwise_cons.2 ⟨fun c mem => ?_, ih b step next⟩
      obtain ⟨_, notBefore⟩ := (mem_cellsFrom next).1 mem
      by_cases same : c = b
      · exact same ▸ above
      · exact Address.lt_trans above (Address.lt_of_not_lt_of_ne notBefore same)

/-- The walk meets the addresses of the range and no others. -/
theorem mem_cells : a ∈ r.cells ↔ a ∈ r := by
  rw [cells, mem_cellsFrom r.topLeft_mem]
  exact ⟨fun met => met.1, fun inside => ⟨inside, not_lt_topLeft inside⟩⟩

/-- The walk meets its addresses in strictly increasing order. -/
theorem pairwise_cells (r : Range) : r.cells.Pairwise (· < ·) := pairwise_cellsFrom r.topLeft_mem

theorem head?_cellsFrom (r : Range) (a : Address) : (r.cellsFrom a).head? = some a := by
  rw [cellsFrom]
  rfl

/-- The walk does not stop before the last corner. -/
theorem getLast?_cellsFrom (inside : a ∈ r) : (r.cellsFrom a).getLast? = some r.bottomRight := by
  induction a using cellsFrom.induct r with
  | case1 a ih =>
    cases step : r.next? a with
    | none =>
      rw [cellsFrom_of_last step, List.getLast?_singleton]
      by_contra other
      have notLast : r.bottomRight ≠ a := fun same => other (by rw [same])
      exact of_next?_eq_none step r.bottomRight_mem
        (Address.lt_of_not_lt_of_ne (not_bottomRight_lt inside) notLast)
    | some b =>
      obtain ⟨next, _, _⟩ := of_next?_eq_some step inside
      rw [cellsFrom_of_next? step, List.getLast?_cons, ih b step next]
      rfl

/-- The addresses that are drawn from the walk one by one are its first ones. After the last of them
there are no more. -/
theorem firstCellsFrom_eq_take (r : Range) (n : Nat) (a : Address) :
    r.firstCellsFrom n (some a) = (r.cellsFrom a).take n := by
  induction n generalizing a with
  | zero => rfl
  | succ n ih =>
    cases step : r.next? a with
    | none =>
      rw [cellsFrom_of_last step, firstCellsFrom, step, List.take_succ_cons, List.take_nil]
      cases n <;> rfl
    | some b => rw [cellsFrom_of_next? step, firstCellsFrom, step, List.take_succ_cons, ih]

/-! ## Columns -/

/-- The addresses of the rectangle, column by column from the left, each column from the top. -/
def columns (r : Range) : List Address :=
  (Integer.between r.topLeft.x r.bottomRight.x).flatMap fun x =>
    (Integer.between r.topLeft.y r.bottomRight.y).map fun y => ⟨x, y⟩

theorem mem_columns : a ∈ r.columns ↔ a ∈ r := by
  simp only [columns, List.mem_flatMap, List.mem_map, Integer.mem_between]
  constructor
  · rintro ⟨x, column, y, row, rfl⟩
    exact ⟨column, row⟩
  · rintro ⟨column, row⟩
    exact ⟨a.x, column, a.y, row, rfl⟩

theorem pairwise_columns (r : Range) : r.columns.Pairwise (· < ·) := by
  refine List.pairwise_flatMap.2 ⟨fun x _ => ?_, Integer.pairwise_between.imp ?_⟩
  · exact List.pairwise_map.2 (Integer.pairwise_between.imp fun less => Or.inr ⟨rfl, less⟩)
  · intro x y less a left b right
    obtain ⟨_, _, rfl⟩ := List.mem_map.1 left
    obtain ⟨_, _, rfl⟩ := List.mem_map.1 right
    exact Or.inl less

/-- The columns depend only on the rectangle, not on how its corners are written. -/
theorem columns_congr {other : Range} (same : ∀ a, a ∈ other ↔ a ∈ r) : other.columns = r.columns :=
  Address.eq_of_pairwise_lt other.pairwise_columns r.pairwise_columns fun a =>
    mem_columns.trans ((same a).trans mem_columns.symm)

theorem cells_eq_columns (r : Range) : r.cells = r.columns :=
  Address.eq_of_pairwise_lt r.pairwise_cells r.pairwise_columns fun _ =>
    mem_cells.trans mem_columns.symm

theorem length_cells (r : Range) : r.cells.length = r.area := by
  rw [cells_eq_columns, columns, List.length_flatMap]
  simp only [List.length_map, List.map_const', List.sum_replicate_nat, Integer.length_between]
  rfl

/-- The walk through a range meets each of its addresses once and no others, in strictly increasing
order, from one corner to the other. It is drawn one address at a time, and it ends. Each step adds
one to a coordinate and never leaves the integers. Its addresses are counted, unless there are too
many for 128 bits. -/
theorem cells_spec (r : Range) :
    (∀ a, r.cells.count a = if a ∈ r then 1 else 0) ∧ r.cells.Pairwise (· < ·) ∧
    r.cells.head? = some r.topLeft ∧ r.cells.getLast? = some r.bottomRight ∧
    (∀ n, r.firstCells n = r.cells.take n) ∧
    (∀ a b, r.next? a = some b →
      b.x = a.x ∧ b.y.toInt = a.y.toInt + 1 ∨ b.x.toInt = a.x.toInt + 1 ∧ b.y = r.topLeft.y) ∧
    r.count? = if r.cells.length < 2 ^ 128 then some r.cells.length else none := by
  refine ⟨fun a => ?_, r.pairwise_cells, r.head?_cellsFrom _, getLast?_cellsFrom r.topLeft_mem,
    fun n => r.firstCellsFrom_eq_take n _, fun a b => toInt_of_next?_eq_some, ?_⟩
  · rw [(Address.nodup_of_pairwise_lt r.pairwise_cells).count]
    simp only [mem_cells]
  · rw [length_cells]
    rfl

/-- Four cells at the end of the plane, and the whole plane, which cannot be counted. -/
theorem cells_spec_plane :
    let last : Integer := Int64.maxValue
    let corner : Range := ⟨⟨last, last - 1⟩, ⟨last - 1, last⟩⟩
    let plane : Range := ⟨⟨Int64.minValue, last⟩, ⟨last, Int64.minValue⟩⟩
    corner.next? ⟨last - 1, last⟩ = some ⟨last, last - 1⟩ ∧ last.toInt = (last - 1).toInt + 1 ∧
    corner.next? ⟨last, last⟩ = none ∧ corner.cells.getLast? = some ⟨last, last⟩ ∧
    corner.cells.length = 4 ∧ corner.count? = some 4 ∧
    plane.cells.length = 2 ^ 128 ∧ plane.count? = none := by
  intro last corner plane
  have step : corner.next? ⟨last - 1, last⟩ = some ⟨last, last - 1⟩ := by decide
  have four : corner.cells.length = 4 := by rw [length_cells]; decide
  have all : plane.cells.length = 2 ^ 128 := by rw [length_cells]; decide
  obtain ⟨_, _, _, ends, _, steps, counted⟩ := cells_spec corner
  obtain ⟨_, _, _, _, _, _, uncounted⟩ := cells_spec plane
  have column : last ≠ last - 1 := by decide
  have farthest : corner.bottomRight = ⟨last, last⟩ := by decide
  refine ⟨step, ?_, by decide, farthest ▸ ends, four, ?_, all, ?_⟩
  · rcases steps _ _ step with ⟨same, _⟩ | ⟨right, _⟩
    · exact absurd same column
    · exact right
  · rw [counted, four]
    rfl
  · rw [uncounted, all]
    rfl

end Range

end CellFormula
