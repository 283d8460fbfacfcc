import CellFormula.Proofs.Evaluation.Basic
import CellFormula.Proofs.Evaluation.Errors
import CellFormula.Proofs.Grid

/-!
# References inside references

A reference that is followed leads into a context whose chain is longer by one address. The chain
never holds an address twice, and all its addresses are occupied. So there are never more references
to follow, one inside the other, than there are cells.

Main statements: `Context.Nested.sound`, the chains of all contexts that are entered are sound;
`Context.resolveWithin_eq_resolve`, it makes no difference to stop at the number of cells;
`Context.resolve_withLimit`, all limits from that number on are alike; `Session.nesting_spec`, which
says so of the requests of a session.
-/

namespace CellFormula

namespace Context

/-- The context is reached from `c` by following so many references, one inside the other. -/
inductive Nested (c : Context) : Nat → Context → Prop
  | here : c.Nested 0 c
  | deeper {n : Nat} {inner next : Context} {a : Address} {formula : String}
      (nested : c.Nested n inner) (entered : inner.enter a = .ok (formula, next)) :
      c.Nested (n + 1) next

/-- The chain consists of occupied addresses, none of them twice, and is within the limit. -/
structure Sound (c : Context) : Prop where
  distinct : c.chain.Nodup
  occupied : ∀ a ∈ c.chain, c.grid.contains a = true
  within : c.chain.length ≤ c.limit

variable {c inner next : Context} {a : Address} {formula : String} {n : Nat}

/-! ## Chains -/

/-- A context that is entered differs in its chain alone. -/
theorem enter_eqs (entered : c.enter a = .ok (formula, inner)) :
    inner.grid = c.grid ∧ inner.limit = c.limit ∧ inner.chain.length = c.chain.length + 1 := by
  obtain ⟨_, _, _, rfl⟩ := enter_eq_ok_iff.1 entered
  exact ⟨rfl, rfl, rfl⟩

namespace Sound

/-- There are more cells than addresses in the chain, as long as some cell is not being resolved. -/
theorem length_lt_size {cell : Cell} (sound : c.Sound) (stored : c.grid.lookup a = some cell)
    (outside : a ∉ c.chain) : c.chain.length < c.grid.size := by
  have distinct : (a :: c.chain).Nodup := List.nodup_cons.2 ⟨outside, sound.distinct⟩
  have occupied : ∀ b ∈ a :: c.chain, c.grid.contains b = true :=
    List.forall_mem_cons.2 ⟨Grid.contains_of_lookup stored, sound.occupied⟩
  exact Grid.length_le_size distinct occupied

theorem length_le (sound : c.Sound) : c.chain.length ≤ min c.limit c.grid.size :=
  Nat.le_min.2 ⟨sound.within, Grid.length_le_size sound.distinct sound.occupied⟩

/-- A reference that is followed keeps the chain sound. -/
theorem enter (sound : c.Sound) (entered : c.enter a = .ok (formula, inner)) : inner.Sound := by
  obtain ⟨⟨cell, stored, _⟩, outside, below, rfl⟩ := enter_eq_ok_iff.1 entered
  exact {
    distinct := List.nodup_cons.2 ⟨outside, sound.distinct⟩
    occupied := List.forall_mem_cons.2 ⟨Grid.contains_of_lookup stored, sound.occupied⟩
    within := below }

/-- The limit refuses nothing if it allows for as many references as there are cells. -/
theorem enter_ne_depthLimit (sound : c.Sound) (roomy : c.grid.size ≤ c.limit) (a : Address)
    (limit : Nat) : c.enter a ≠ .error (.depthLimit limit) := by
  intro refused
  obtain ⟨⟨cell, stored⟩, outside, full⟩ := of_enter_eq_depthLimit refused
  have := sound.length_lt_size stored outside
  omega

end Sound

namespace Nested

theorem eqs (nested : c.Nested n inner) :
    inner.grid = c.grid ∧ inner.limit = c.limit ∧ inner.chain.length = c.chain.length + n := by
  induction nested with
  | here => exact ⟨rfl, rfl, rfl⟩
  | deeper _ entered ih =>
    obtain ⟨grid, limit, length⟩ := enter_eqs entered
    exact ⟨grid.trans ih.1, limit.trans ih.2.1, length.trans (congrArg (· + 1) ih.2.2)⟩

theorem sound (nested : c.Nested n inner) (sound : c.Sound) : inner.Sound := by
  induction nested with
  | here => exact sound
  | deeper _ entered ih => exact ih.enter entered

/-- What is nested in a context that is entered is nested one reference deeper. -/
theorem of_enter (entered : c.enter a = .ok (formula, inner)) (nested : inner.Nested n next) :
    c.Nested (n + 1) next := by
  induction nested with
  | here => exact .deeper .here entered
  | deeper _ last ih => exact .deeper ih last

end Nested

/-! ## Refusals -/

/-- If the error is a refusal, it is that of a context nested in `c`. -/
def RefusedWithin (c : Context) (e : FormulaError) : Prop :=
  e.isRefusal = true → ∃ n inner a, c.Nested n inner ∧ inner.enter a = .error e

theorem raisesOnly_resolve (c : Context) (a : Address) :
    (c.resolve a).RaisesOnly c.RefusedWithin := by
  -- by induction along the chain, which ends where a reference is refused
  induction c, a using Context.resolve.induct with
  | case1 c a cause refused =>
    rw [resolve_of_refused refused]
    exact Traced.raisesOnly_fail fun _ => ⟨0, c, a, .here, refused⟩
  | case2 c a formula inner entered ih =>
    refine (raisesOnly_resolve_of_entered entered).mono fun e raised refusal => ?_
    obtain ⟨b, raised⟩ := raised refusal
    obtain ⟨n, next, last, nested, refused⟩ := ih b e raised refusal
    exact ⟨n + 1, next, last, nested.of_enter entered, refused⟩

/-! ## Stopping early -/

/-- The value of the formula stored at an address, when at most `n` references are followed one
inside the other. The value of any further reference is `cut`. -/
def resolveWithin (cut : Traced Value) (n : Nat) (c : Context) (a : Address) : Traced Value :=
  match c.enter a with
  | .error cause => .fail cause
  | .ok (formula, inner) =>
    match n with
    | 0 => cut
    | n + 1 => do
      let tree ← Tree.ofText formula
      let v ← tree.evaluate inner.grid (resolveWithin cut n inner)
      Traced.emit (.resolved a v)
      return v

/-- Nothing is cut if as many references may be followed as there are cells, or as the limit
allows. -/
theorem resolveWithin_eq_resolve (cut : Traced Value) (sound : c.Sound)
    (enough : min c.limit c.grid.size ≤ c.chain.length + n) (a : Address) :
    resolveWithin cut n c a = c.resolve a := by
  induction n generalizing c a with
  | zero =>
    -- the chain is already as long as it can be, so the reference is refused
    cases entered : c.enter a with
    | error cause => rw [resolve_of_refused entered, resolveWithin, entered]
    | ok found =>
      have longer := (sound.enter entered).length_le
      obtain ⟨grid, limit, length⟩ := enter_eqs entered
      rw [grid, limit, length] at longer
      omega
  | succ n ih =>
    cases entered : c.enter a with
    | error cause => rw [resolve_of_refused entered, resolveWithin, entered]
    | ok found =>
      obtain ⟨formula, inner⟩ := found
      obtain ⟨grid, limit, length⟩ := enter_eqs entered
      have still : min inner.limit inner.grid.size ≤ inner.chain.length + n := by
        rw [grid, limit, length]
        omega
      have same : resolveWithin cut n inner = inner.resolve :=
        funext (ih (sound.enter entered) still)
      rw [resolve_of_entered entered, resolveWithin, entered]
      simp only [same]
      rfl

/-! ## Limits -/

/-- The context with another limit. -/
def withLimit (c : Context) (limit : Nat) : Context := { c with limit }

/-- Two limits that allow for as many references as there are cells refuse alike: not at all. -/
theorem Sound.enter_withLimit {limit : Nat} (sound : c.Sound) (roomy : c.grid.size ≤ c.limit)
    (other : c.grid.size ≤ limit) (a : Address) :
    (c.withLimit limit).enter a =
      (c.enter a).map fun (formula, inner) => (formula, inner.withLimit limit) := by
  have entry := c.entry a
  generalize c.enter a = answer at entry ⊢
  refine Entry.enter_eq ?_
  cases entry with
  | vacant absent => exact .vacant absent
  | circular stored inside => exact .circular stored inside
  | entered stored outside _ =>
    have room := sound.length_lt_size stored outside
    exact .entered stored outside (Nat.lt_of_lt_of_le room other)
  | full stored outside full =>
    have room := sound.length_lt_size stored outside
    omega

theorem resolve_withLimit {limit : Nat} (sound : c.Sound) (roomy : c.grid.size ≤ c.limit)
    (other : c.grid.size ≤ limit) (a : Address) :
    (c.withLimit limit).resolve a = c.resolve a := by
  induction c, a using Context.resolve.induct with
  | case1 c a cause refused =>
    have same := sound.enter_withLimit roomy other a
    rw [refused] at same
    rw [resolve_of_refused refused, resolve_of_refused same]
  | case2 c a formula inner entered ih =>
    have otherEntered := sound.enter_withLimit roomy other a
    rw [entered] at otherEntered
    obtain ⟨grid, innerLimit, _⟩ := enter_eqs entered
    have same : (inner.withLimit limit).resolve = inner.resolve := by
      funext b
      refine ih b (sound.enter entered) ?_ ?_
      · rwa [grid, innerLimit]
      · rwa [grid]
    rw [resolve_of_entered entered, resolve_of_entered otherEntered]
    unfold evaluateTree
    rw [same]
    rfl

end Context

/-! ## Sessions -/

namespace Session

variable {s t : Session}

theorem sound_root (s : Session) : s.root.Sound := ⟨List.nodup_nil, nofun, Nat.zero_le _⟩

/-- Two sessions with the same grid give the same answers if they resolve addresses alike. -/
theorem handle_fst_congr (resolves : t.root.resolve = s.root.resolve) (grids : t.grid = s.grid)
    (request : Request) : (t.handle request).1 = (s.handle request).1 := by
  have trees : t.root.evaluateTree = s.root.evaluateTree := by
    funext tree
    exact congrArg₂ (fun grid resolve => tree.evaluate grid resolve) grids resolves
  cases request with
  | run formula =>
    have same : t.outcome formula = s.outcome formula := by
      unfold outcome
      rw [trees]
    show Reply.outcome <$> (t.run formula).1 = Reply.outcome <$> (s.run formula).1
    rw [run_fst, run_fst, same]
  | evaluate formula =>
    show Reply.value <$> t.evaluate formula = Reply.value <$> s.evaluate formula
    unfold evaluate
    rw [trees]
  | evaluateTree tree => exact congrArg (fun answer => Reply.value <$> answer tree) trees
  | evaluateExpr expr =>
    exact congrArg₂ (fun grid resolve => Reply.value <$> expr.evaluate grid resolve) grids resolves
  | resolve a => exact congrArg (fun resolve => Reply.value <$> resolve a) resolves
  | store a _ | insert a _ | erase a =>
    exact congrArg (fun grid => Traced.ok (Reply.replaced (grid.lookup a))) grids

/-- Whatever a session evaluates, the chain of each context that is entered on the way consists of
distinct occupied addresses, one for each reference that leads to it, and it is no longer than the
limit allows or than there are cells. So evaluation ends, and nothing is lost by stopping it at that
number. If the limit is not below the number of cells, it plays no part at all: it refuses no
reference, not even one that a range function passes over, and any other such limit leads to the
same answers. -/
theorem nesting_spec (s : Session) :
    (∀ n c, s.root.Nested n c →
      c.chain.Nodup ∧ (∀ a ∈ c.chain, s.grid.contains a = true) ∧ c.chain.length = n ∧
        n ≤ min s.limit s.grid.size) ∧
    (∀ cut, s.root.resolveWithin cut (min s.limit s.grid.size) = s.root.resolve) ∧
    (s.grid.size ≤ s.limit →
      (∀ n c, s.root.Nested n c → ∀ a limit, c.enter a ≠ .error (.depthLimit limit)) ∧
      ∀ request,
        (∀ limit, ¬ (s.handle request).1.Raises (.depthLimit limit)) ∧
        ∀ limit, s.grid.size ≤ limit →
          ((Session.mk s.grid limit).handle request).1 = (s.handle request).1) := by
  refine ⟨?_, ?_, ?_⟩
  · intro n c nested
    have sound := nested.sound s.sound_root
    obtain ⟨grid, limit, length⟩ := nested.eqs
    have depth : c.chain.length = n := length.trans (Nat.zero_add n)
    have bounded := sound.length_le
    rw [depth, grid, limit] at bounded
    have occupied := sound.occupied
    rw [grid] at occupied
    exact ⟨sound.distinct, occupied, depth, bounded⟩
  · intro cut
    funext a
    exact Context.resolveWithin_eq_resolve cut s.sound_root (Nat.le_add_left _ _) a
  · intro roomy
    have unlimited :
        ∀ n c, s.root.Nested n c → ∀ a limit, c.enter a ≠ .error (.depthLimit limit) := by
      intro n c nested
      obtain ⟨grid, limit, _⟩ := nested.eqs
      exact (nested.sound s.sound_root).enter_ne_depthLimit (by rwa [grid, limit])
    refine ⟨unlimited, fun request => ⟨?_, ?_⟩⟩
    · intro limit raised
      obtain ⟨a, resolving⟩ := s.raisesOnly_handle request _ raised rfl
      obtain ⟨n, c, b, nested, refused⟩ := s.root.raisesOnly_resolve a _ resolving rfl
      exact unlimited n c nested b limit refused
    · intro limit other
      have resolves : (Session.mk s.grid limit).root.resolve = s.root.resolve :=
        funext (Context.resolve_withLimit s.sound_root roomy other)
      exact handle_fst_congr resolves rfl request

/-- Two cells that refer to each other do not exceed a limit of two. -/
theorem nesting_spec_cycle :
    let cells := ((∅ : Grid).insert ⟨1, 1⟩ "\x7bA,2\x7d").insert ⟨1, 2⟩ "\x7bA,1\x7d"
    cells.size ≤ 2 ∧ ∀ request,
      (∀ limit, ¬ ((Session.mk cells 2).handle request).1.Raises (.depthLimit limit)) ∧
        ((Session.mk cells 256).handle request).1 = ((Session.mk cells 2).handle request).1 := by
  intro cells
  have roomy : cells.size ≤ 2 := by decide
  have answers := ((nesting_spec ⟨cells, 2⟩).2.2 roomy).2
  exact ⟨roomy, fun request => ⟨(answers request).1, (answers request).2 256 (by decide)⟩⟩

end Session

end CellFormula
