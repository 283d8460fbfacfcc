import CellFormula.Grid
import CellFormula.Proofs.Range
import Mathlib.Data.Set.Card

/-!
# Occupied addresses

The occupied addresses of a range are found in two ways, by walking the range or by looking through
the stored cells. Both find the same list.

Main statements: `mem_occupiedIn` and `pairwise_occupiedIn`, the list holds the occupied addresses
of the range, in strictly increasing order; `occupiedIn_spec`, so every way to look for them finds
this list.
-/

namespace CellFormula

namespace Address

/-- Sorting distinct addresses leaves a strictly increasing list. -/
theorem pairwise_mergeSort {addresses : List Address} (distinct : addresses.Nodup) :
    (addresses.mergeSort fun a b => ¬ b < a).Pairwise (· < ·) := by
  have sorted : (addresses.mergeSort fun a b => ¬ b < a).Pairwise fun a b => ¬ b < a := by
    refine (List.pairwise_mergeSort ?_ ?_ addresses).imp fun le => of_decide_eq_true le
    · intro a b c first second
      simp only [decide_eq_true_eq, lt_iff_toInt] at *
      omega
    · intro a b
      simp only [Bool.or_eq_true, decide_eq_true_eq, lt_iff_toInt]
      omega
  have apart : (addresses.mergeSort fun a b => ¬ b < a).Nodup :=
    (List.mergeSort_perm addresses _).nodup_iff.2 distinct
  exact (sorted.and apart).imp fun both => lt_of_not_lt_of_ne both.1 both.2.symm

end Address

namespace Grid

variable {g : Grid} {r : Range} {a : Address}

/-- The occupied addresses, in order. -/
def addresses (g : Grid) : List Address := g.cells.map Cell.address
theorem pairwise_addresses (g : Grid) : g.addresses.Pairwise (· < ·) :=
  List.pairwise_map.2 g.ordered

@[simp] theorem length_addresses (g : Grid) : g.addresses.length = g.size := List.length_map ..

theorem contains_iff : g.contains a = true ↔ a ∈ g.addresses := by
  simp [contains, lookup, addresses, List.find?_isSome]

theorem contains_of_lookup {cell : Cell} (stored : g.lookup a = some cell) :
    g.contains a = true := by
  rw [contains, stored]
  rfl

/-- There are as many cells as occupied addresses. -/
theorem encard_occupied (g : Grid) : {a | g.contains a = true}.encard = g.size := by
  have distinct : g.addresses.Nodup := Address.nodup_of_pairwise_lt g.pairwise_addresses
  have occupied : {a | g.contains a = true} = (g.addresses.toFinset : Set Address) := by
    ext a
    simp [contains_iff]
  rw [occupied, Set.encard_coe_eq_coe_finsetCard, List.toFinset_card_of_nodup distinct,
    length_addresses]

/-- There is room for as many distinct occupied addresses as there are cells. -/
theorem length_le_size {distinct : List Address} (nodup : distinct.Nodup)
    (occupied : ∀ a ∈ distinct, g.contains a = true) : distinct.length ≤ g.size := by
  rw [← length_addresses]
  exact (List.subperm_of_subset nodup fun a mem => contains_iff.1 (occupied a mem)).length_le

/-! ## Occupied addresses of a range -/

theorem mem_occupiedIn : a ∈ g.occupiedIn r ↔ g.contains a = true ∧ a ∈ r := by
  unfold occupiedIn
  split
  · rw [List.mem_filter, Range.mem_cells]
    exact and_comm
  · rw [List.mem_filter, contains_iff, decide_eq_true_eq]
    rfl

theorem pairwise_occupiedIn (g : Grid) (r : Range) : (g.occupiedIn r).Pairwise (· < ·) := by
  unfold occupiedIn
  split
  · exact r.pairwise_cells.filter _
  · exact g.pairwise_addresses.filter _

/-- A strictly increasing list of the occupied addresses of a range is what the grid finds. -/
theorem eq_occupiedIn {found : List Address} (ordered : found.Pairwise (· < ·))
    (mem : ∀ a, a ∈ found ↔ g.contains a = true ∧ a ∈ r) : found = g.occupiedIn r :=
  Address.eq_of_pairwise_lt ordered (g.pairwise_occupiedIn r) fun a =>
    (mem a).trans mem_occupiedIn.symm

theorem filter_cells (g : Grid) (r : Range) : r.cells.filter g.contains = g.occupiedIn r :=
  eq_occupiedIn (r.pairwise_cells.filter _) fun a => by
    rw [List.mem_filter, Range.mem_cells, and_comm]

theorem occupiedIn_congr {other : Grid} (same : ∀ a ∈ r, other.contains a = g.contains a) :
    other.occupiedIn r = g.occupiedIn r :=
  eq_occupiedIn (other.pairwise_occupiedIn r) fun a => by
    rw [mem_occupiedIn]
    exact and_congr_left fun inside => by rw [same a inside]

/-- The grid finds the occupied addresses of a range, each once, in the order of columns and rows.
It finds them by walking the range, and equally by sorting those that lie in the range out of all
the occupied addresses, in whatever order these come. So nothing else about the grid matters. -/
theorem occupiedIn_spec (g : Grid) (r : Range) :
    (∀ a, a ∈ g.occupiedIn r ↔ g.contains a = true ∧ a ∈ r) ∧
    (g.occupiedIn r).Pairwise (· < ·) ∧
    g.occupiedIn r = r.cells.filter g.contains ∧
    (∀ keys : List Address, keys.Nodup → (∀ a, a ∈ keys ↔ g.contains a = true) →
      g.occupiedIn r = (keys.filter (· ∈ r)).mergeSort fun a b => ¬ b < a) ∧
    ∀ other : Grid, (∀ a ∈ r, other.contains a = g.contains a) →
      other.occupiedIn r = g.occupiedIn r := by
  refine ⟨fun a => mem_occupiedIn, g.pairwise_occupiedIn r, (g.filter_cells r).symm, ?_,
    fun other same => occupiedIn_congr same⟩
  intro keys distinct listed
  refine (eq_occupiedIn (Address.pairwise_mergeSort (distinct.filter _)) fun a => ?_).symm
  rw [(List.mergeSort_perm _ _).mem_iff, List.mem_filter, listed, decide_eq_true_eq]

/-- Two cells of a range that is given from its last corner, listed in the opposite order. -/
theorem occupiedIn_spec_reversed :
    let g := ((∅ : Grid).insert ⟨1, 3⟩ "1").insert ⟨2, 1⟩ "2"
    let r : Range := ⟨⟨2, 3⟩, ⟨1, 1⟩⟩
    let keys : List Address := [⟨2, 1⟩, ⟨1, 3⟩]
    keys.Nodup ∧ (∀ a, a ∈ keys ↔ g.contains a = true) ∧
      g.occupiedIn r = (keys.filter (· ∈ r)).mergeSort fun a b => ¬ b < a := by
  intro g r keys
  have distinct : keys.Nodup := by decide
  have stored : g.addresses = [⟨1, 3⟩, ⟨2, 1⟩] := by rfl
  have listed : ∀ a, a ∈ keys ↔ g.contains a = true := by
    intro a
    rw [contains_iff, stored, List.mem_pair, List.mem_pair]
    exact or_comm
  exact ⟨distinct, listed, (occupiedIn_spec g r).2.2.2.1 keys distinct listed⟩

end Grid

end CellFormula
