import CellFormula.Proofs.Evaluation.Terms
import CellFormula.Proofs.Tree.Spelling
import CellFormula.Session

/-!
# What a formula depends on

A formula depends on the addresses that it reads, on those that the formulas stored there read, and
so on. Vacant addresses are among them, and all addresses of a range that is aggregated, but no
other part of the grid plays a role.

Main statements: `Context.resolve_withGrid`, addresses of a set that is closed under reading are
resolved alike over all grids that agree on the set; `Session.locality_spec`, so a session evaluates
a formula alike whatever is stored at the addresses on which the formula does not depend.
-/

namespace CellFormula

namespace Grid

/-- The formulas stored at the addresses of the set read no address outside of it. -/
def ClosedOn (grid : Grid) (addresses : Set Address) : Prop :=
  ∀ a ∈ addresses, ∀ cell, grid.lookup a = some cell →
    ∀ b, FormulaReads cell.formula b → b ∈ addresses

/-- At each address of the set both grids store the same formula, or neither stores any. -/
def AgreeOn (grid other : Grid) (addresses : Set Address) : Prop :=
  ∀ a ∈ addresses, (other.lookup a).map Cell.formula = (grid.lookup a).map Cell.formula

variable {grid other : Grid} {addresses : Set Address} {a : Address}
theorem address_of_lookup {cell : Cell} (stored : grid.lookup a = some cell) :
    cell.address = a := by
  simpa using List.find?_some stored

theorem AgreeOn.lookup_eq (agree : grid.AgreeOn other addresses) (mem : a ∈ addresses) :
    other.lookup a = grid.lookup a := by
  have same := agree a mem
  cases stored : grid.lookup a with
  | none => simpa [stored] using same
  | some cell =>
    rw [stored] at same
    obtain ⟨found, otherStored, formula⟩ := Option.map_eq_some_iff.1 same
    have place : found.address = cell.address :=
      (address_of_lookup otherStored).trans (address_of_lookup stored).symm
    cases found
    cases cell
    cases place
    cases formula
    exact otherStored

theorem AgreeOn.contains_eq (agree : grid.AgreeOn other addresses) (mem : a ∈ addresses) :
    other.contains a = grid.contains a := by
  rw [contains, contains, agree.lookup_eq mem]

/-- Grids with the same formulas at all addresses agree on every set. -/
theorem agreeOn_of_lookup_eq (same : ∀ a ∈ addresses, other.lookup a = grid.lookup a) :
    grid.AgreeOn other addresses :=
  fun a mem => congrArg (Option.map Cell.formula) (same a mem)

end Grid

/-! ## Resolving addresses -/

/-- All addresses that the tree reads are in the set. -/
def Tree.ReadsWithin (tree : Tree) (addresses : Set Address) : Prop :=
  ∀ a, tree.Dereferences a ∨ tree.Aggregates a → a ∈ addresses

namespace Context

variable {c : Context} {other : Grid} {addresses : Set Address} {a : Address}

/-- The context over another grid. -/
def withGrid (c : Context) (grid : Grid) : Context := { c with grid }

theorem enter_withGrid (same : other.lookup a = c.grid.lookup a) :
    (c.withGrid other).enter a =
      (c.enter a).map fun (formula, inner) => (formula, inner.withGrid other) := by
  have entry := c.entry a
  generalize c.enter a = answer at entry ⊢
  refine Entry.enter_eq ?_
  cases entry with
  | vacant absent => exact .vacant (same.trans absent)
  | circular stored inside => exact .circular (same.trans stored) inside
  | entered stored outside below => exact .entered (same.trans stored) outside below
  | full stored outside full => exact .full (same.trans stored) outside full

theorem evaluateTree_withGrid {tree : Tree} (agree : c.grid.AgreeOn other addresses)
    (resolves : ∀ a ∈ addresses, (c.withGrid other).resolve a = c.resolve a)
    (reads : tree.ReadsWithin addresses) :
    (c.withGrid other).evaluateTree tree = c.evaluateTree tree :=
  Tree.evaluate_congr (fun a mem => resolves a (reads a (.inl mem))) fun a mem =>
    ⟨agree.contains_eq (reads a (.inr mem)), resolves a (reads a (.inr mem))⟩

/-- Addresses of a set that is closed under reading are resolved alike over all grids that agree on
the set. -/
theorem resolve_withGrid (closed : c.grid.ClosedOn addresses)
    (agree : c.grid.AgreeOn other addresses) (mem : a ∈ addresses) :
    (c.withGrid other).resolve a = c.resolve a := by
  -- by induction along the chain: what is stored in the set reads addresses of the set only
  induction c, a using Context.resolve.induct with
  | case1 c a cause refused =>
    have otherRefused := enter_withGrid (agree.lookup_eq mem)
    rw [refused] at otherRefused
    rw [resolve_of_refused refused, resolve_of_refused otherRefused]
  | case2 c a formula inner entered ih =>
    have otherEntered := enter_withGrid (agree.lookup_eq mem)
    rw [entered] at otherEntered
    obtain ⟨⟨cell, stored, rfl⟩, _, _, rfl⟩ := enter_eq_ok_iff.1 entered
    rw [resolve_of_entered entered, resolve_of_entered otherEntered]
    refine Traced.lift_bind_congr fun tree parsed => ?_
    have reads : tree.ReadsWithin addresses := fun b read =>
      closed a mem cell stored b ⟨tree, parsed, read⟩
    have same := evaluateTree_withGrid (c := ⟨c.grid, c.limit, a :: c.chain⟩) agree
      (fun b inside => ih b closed agree inside) reads
    simp only [same]

end Context

/-! ## Formulas -/

/-- The formula reads the address, or a formula does that is stored where it depends on. -/
inductive DependsOn (grid : Grid) (formula : String) : Address → Prop
  | direct {a : Address} (reads : FormulaReads formula a) : DependsOn grid formula a
  | through {a b : Address} {cell : Cell} (depends : DependsOn grid formula a)
      (stored : grid.lookup a = some cell) (reads : FormulaReads cell.formula b) :
      DependsOn grid formula b

/-- A set that is closed under reading has all addresses on which a formula depends, if it has those
that the formula reads. -/
theorem DependsOn.mem {grid : Grid} {formula : String} {addresses : Set Address} {a : Address}
    (depends : DependsOn grid formula a) (reads : ∀ b, FormulaReads formula b → b ∈ addresses)
    (closed : grid.ClosedOn addresses) : a ∈ addresses := by
  induction depends with
  | direct read => exact reads _ read
  | through _ stored read ih => exact closed _ ih _ stored _ read

namespace Session

variable {s : Session} {formula : String}

theorem evaluate_of_agreeOn {other : Grid} {addresses : Set Address}
    (reads : ∀ a, FormulaReads formula a → a ∈ addresses) (closed : s.grid.ClosedOn addresses)
    (agree : s.grid.AgreeOn other addresses) :
    (Session.mk other s.limit).evaluate formula = s.evaluate formula := by
  refine Traced.lift_bind_congr fun tree parsed => ?_
  have resolves : ∀ a ∈ addresses, (s.root.withGrid other).resolve a = s.root.resolve a :=
    fun a mem => Context.resolve_withGrid closed agree mem
  exact Context.evaluateTree_withGrid agree resolves fun a read => reads a ⟨tree, parsed, read⟩

theorem evaluate_of_dependsOn {other : Grid}
    (same : ∀ a, DependsOn s.grid formula a → other.lookup a = s.grid.lookup a) :
    (Session.mk other s.limit).evaluate formula = s.evaluate formula := by
  have closed : s.grid.ClosedOn {a | DependsOn s.grid formula a} :=
    fun _ depends _ stored _ reads => .through depends stored reads
  exact evaluate_of_agreeOn (fun _ reads => .direct reads) closed (Grid.agreeOn_of_lookup_eq same)

/-- A formula has the same value or error, and leaves the same events, over any two grids that agree
on a set of addresses with all that the formula reads and all that is read by the formulas stored in
the set. Such are the addresses on which it depends. So it makes no difference what is written or
removed elsewhere, and none how a grid came to hold its cells. -/
theorem locality_spec (s : Session) (formula : String) :
    (∀ (other : Grid) (addresses : Set Address), (∀ a, FormulaReads formula a → a ∈ addresses) →
      s.grid.ClosedOn addresses → s.grid.AgreeOn other addresses →
      (Session.mk other s.limit).evaluate formula = s.evaluate formula) ∧
    (∀ other : Grid, (∀ a, DependsOn s.grid formula a → other.lookup a = s.grid.lookup a) →
      (Session.mk other s.limit).evaluate formula = s.evaluate formula) ∧
    (∀ a, ¬ DependsOn s.grid formula a →
      (∀ text, (Session.mk (s.grid.insert a text) s.limit).evaluate formula = s.evaluate formula) ∧
      (Session.mk (s.grid.erase a) s.limit).evaluate formula = s.evaluate formula) ∧
    ∀ other : Grid, (∀ a, other.lookup a = s.grid.lookup a) →
      (Session.mk other s.limit).evaluate formula = s.evaluate formula := by
  refine ⟨fun _ _ => evaluate_of_agreeOn, fun _ => evaluate_of_dependsOn, fun a unrelated => ?_,
    fun _ same => evaluate_of_dependsOn fun b _ => same b⟩
  have apart : ∀ b, DependsOn s.grid formula b → a ≠ b := by
    rintro b depends rfl
    exact unrelated depends
  constructor
  · intro text
    refine evaluate_of_dependsOn fun b depends => ?_
    rw [Grid.lookup_insert, if_neg (apart b depends)]
  · refine evaluate_of_dependsOn fun b depends => ?_
    rw [Grid.lookup_erase, if_neg (apart b depends)]

/-- The sum of a square depends on nothing outside of it, not even on a cell that refers to
itself. -/
theorem locality_spec_sum :
    let cells := (∅ : Grid).insert ⟨1, 1⟩ "7"
    let others := cells.insert ⟨3, 3⟩ "\x7bC,3\x7d"
    let square : Set Address := {a | a ∈ Range.mk ⟨1, 1⟩ ⟨2, 2⟩}
    let formula := "Sum \x7bA,1\x7d \x7bB,2\x7d"
    ((∀ a, FormulaReads formula a → a ∈ square) ∧ cells.ClosedOn square ∧
      cells.AgreeOn others square ∧
      (Session.mk others 9).evaluate formula = (Session.mk cells 9).evaluate formula) ∧
    ¬ DependsOn others formula ⟨3, 3⟩ ∧
      (Session.mk (others.erase ⟨3, 3⟩) 9).evaluate formula =
        (Session.mk others 9).evaluate formula := by
  intro cells others square formula
  have first : IsWordOf .reference "\x7bA,1\x7d".toList := by decide
  have last : IsWordOf .reference "\x7bB,2\x7d".toList := by decide
  have parsed : Tree.ofText formula = .ok (.binary (.aggregate .sum)
      (.leaf .reference "\x7bA,1\x7d") (.leaf .reference "\x7bB,2\x7d")) :=
    (Spells.rangeOf .sum first.lexes last.lexes).ofText_eq
  have starts : readReference "\x7bA,1\x7d" = .ok ⟨1, 1⟩ := rfl
  have stops : readReference "\x7bB,2\x7d" = .ok ⟨2, 2⟩ := rfl
  have reads : ∀ a, FormulaReads formula a → a ∈ square := by
    intro a read
    rw [formulaReads_iff parsed] at read
    show a ∈ Range.mk ⟨1, 1⟩ ⟨2, 2⟩
    simpa [Tree.Dereferences, Tree.Aggregates, Tree.terms, Tree.corner, starts, stops] using read
  have number : ∀ a, ¬ FormulaReads "7" a := by
    intro a read
    have digit : IsWordOf .integer "7".toList := by decide
    have leaf := (Spells.atom rfl digit.lexes).group.ofText_eq
    rw [formulaReads_iff leaf] at read
    simp [Tree.Dereferences, Tree.Aggregates, Tree.terms] at read
  have outside : ∀ a ∈ square, (⟨3, 3⟩ : Address) ≠ a := by
    rintro a inside rfl
    exact absurd inside (by decide : ¬ (⟨3, 3⟩ : Address) ∈ Range.mk ⟨1, 1⟩ ⟨2, 2⟩)
  have closed : cells.ClosedOn square := by
    intro a _ cell stored b read
    rw [Grid.lookup_insert] at stored
    split at stored
    · cases stored
      exact absurd read (number b)
    · cases stored
  have agree : cells.AgreeOn others square := Grid.agreeOn_of_lookup_eq fun a inside => by
    rw [Grid.lookup_insert, if_neg (outside a inside)]
  have unrelated : ¬ DependsOn others formula ⟨3, 3⟩ := by
    intro depends
    refine outside _ (depends.mem reads fun a inside cell stored => ?_) rfl
    rw [agree.lookup_eq inside] at stored
    exact closed a inside cell stored
  exact ⟨⟨reads, closed, agree,
      (locality_spec ⟨cells, 9⟩ formula).1 others square reads closed agree⟩,
    unrelated, ((locality_spec ⟨others, 9⟩ formula).2.2.1 ⟨3, 3⟩ unrelated).2⟩

end Session

end CellFormula
