import CellFormula.Proofs.Evaluation.Aggregate
import CellFormula.Proofs.Evaluation.Natural
import CellFormula.Proofs.Operator.Exact
import Mathlib.Data.List.Infix
import Mathlib.Data.List.Perm.Basic

/-!
# Sums of integers

A sum of integers is the exact sum, but it has to fit after every single number. So the order of the
numbers can decide whether there is a sum, though never what it is. The order makes no difference
when the numbers above zero and those below zero have sums that fit.

Main statements: `foldlM_addNumber`, the sum is exact if all running sums fit;
`exists_foldlM_addNumber_eq_error`, the first one that does not fit is the error;
`runningSumsFit_perm_iff`, when that holds in every order; `Context.sum_spec`, all this of the cells
of a rectangle, in whatever way their values are moved around in it.
-/

namespace CellFormula

/-! ## Lists of integers -/

namespace Integer

/-- The sum, without bounds. -/
def exactSum (ns : List Integer) : Int := (ns.map Int64.toInt).sum

/-- The sum of the numbers above zero. -/
def gains (ns : List Integer) : Int := (ns.map fun n => max n.toInt 0).sum

/-- The sum of the numbers below zero. -/
def losses (ns : List Integer) : Int := (ns.map fun n => min n.toInt 0).sum

/-- The sums of all beginnings of the list fit, and so does that of the list as a whole. -/
def RunningSumsFit (ns : List Integer) : Prop := ∀ front ∈ ns.inits, Fits (exactSum front)

instance (ns : List Integer) : Decidable (RunningSumsFit ns) :=
  inferInstanceAs (Decidable (∀ front ∈ ns.inits, Fits (exactSum front)))

variable {ms ns : List Integer} {n : Integer}

@[simp] theorem exactSum_nil : exactSum [] = 0 := rfl

@[simp] theorem exactSum_cons : exactSum (n :: ns) = n.toInt + exactSum ns := rfl

@[simp] theorem gains_cons : gains (n :: ns) = max n.toInt 0 + gains ns := rfl

@[simp] theorem losses_cons : losses (n :: ns) = min n.toInt 0 + losses ns := rfl

theorem exactSum_perm (perm : ms.Perm ns) : exactSum ms = exactSum ns := (perm.map _).sum_eq

theorem gains_perm (perm : ms.Perm ns) : gains ms = gains ns := (perm.map _).sum_eq

theorem losses_perm (perm : ms.Perm ns) : losses ms = losses ns := (perm.map _).sum_eq

theorem fits_of_between {low mid high : Int} (lowFits : Fits low) (highFits : Fits high)
    (above : low ≤ mid) (below : mid ≤ high) : Fits mid :=
  ⟨lowFits.1.trans above, below.trans highFits.2⟩

theorem zero_within (ns : List Integer) : losses ns ≤ 0 ∧ 0 ≤ gains ns := by
  induction ns with
  | nil => exact ⟨Int.le_refl 0, Int.le_refl 0⟩
  | cons n rest ih =>
    rw [gains_cons, losses_cons]
    omega

/-- On the way through a list the sum stays between that of its losses and that of its gains. -/
theorem exactSum_within {front : List Integer} (begins : front <+: ns) :
    losses ns ≤ exactSum front ∧ exactSum front ≤ gains ns := by
  induction ns generalizing front with
  | nil =>
    obtain rfl := List.prefix_nil.1 begins
    exact zero_within []
  | cons n rest ih =>
    rcases List.prefix_cons_iff.1 begins with rfl | ⟨front, rfl, behind⟩
    · exact zero_within (n :: rest)
    · have := ih behind
      rw [gains_cons, losses_cons, exactSum_cons]
      omega

theorem exactSum_filter_pos (ns : List Integer) :
    exactSum (ns.filter fun n => 0 < n.toInt) = gains ns := by
  induction ns with
  | nil => rfl
  | cons n rest ih =>
    rw [List.filter_cons, gains_cons]
    split
    · next positive =>
      rw [exactSum_cons, ih, Int.max_eq_left (of_decide_eq_true positive).le]
    · next other =>
      have : n.toInt ≤ 0 := by simpa using other
      rw [ih, Int.max_eq_right this, Int.zero_add]

theorem exactSum_filter_neg (ns : List Integer) :
    exactSum (ns.filter fun n => n.toInt < 0) = losses ns := by
  induction ns with
  | nil => rfl
  | cons n rest ih =>
    rw [List.filter_cons, losses_cons]
    split
    · next negative =>
      rw [exactSum_cons, ih, Int.min_eq_left (of_decide_eq_true negative).le]
    · next other =>
      have : 0 ≤ n.toInt := by simpa using other
      rw [ih, Int.min_eq_right this, Int.zero_add]

theorem RunningSumsFit.of_begins {front : List Integer} (fit : RunningSumsFit ns)
    (begins : front <+: ns) : Fits (exactSum front) :=
  fit front ((List.mem_inits _ _).2 begins)

/-- All orders of a list have running sums that fit exactly if its gains alone and its losses alone
have sums that fit. -/
theorem runningSumsFit_perm_iff :
    (∀ ms : List Integer, ms.Perm ns → RunningSumsFit ms) ↔ Fits (gains ns) ∧ Fits (losses ns) := by
  constructor
  · intro fit
    -- the worst orders bring all gains first, or all losses
    have first (p : Integer → Bool) : Fits (exactSum (ns.filter p)) :=
      (fit _ (List.filter_append_perm p ns)).of_begins (List.prefix_append _ _)
    rw [← exactSum_filter_pos, ← exactSum_filter_neg]
    exact ⟨first _, first _⟩
  · rintro ⟨gainsFit, lossesFit⟩ ms perm front mem
    have within := exactSum_within ((List.mem_inits _ _).1 mem)
    rw [gains_perm perm, losses_perm perm] at within
    exact fits_of_between lossesFit gainsFit within.1 within.2

end Integer

/-! ## Folding -/

section

open Integer

variable {m n i : Integer} {ns : List Integer}

theorem addNumber_of_toInt (same : i.toInt = m.toInt + n.toInt) :
    addNumber (.integer m) (.integer n) = .ok (.integer i) := by
  rw [addNumber, fit_of_toInt same]
  rfl

theorem addNumber_of_not_fits (unfit : ¬ Fits (m.toInt + n.toInt)) :
    addNumber (.integer m) (.integer n) = .error (.overflow (.operands m .add n)) := by
  rw [addNumber, fit_of_not_fits unfit]
  rfl

/-- A sum that starts at `m` is exact if every running sum fits. -/
theorem foldlM_addNumber (running : ∀ front, front <+: ns → Fits (m.toInt + exactSum front)) :
    ∃ i : Integer, i.toInt = m.toInt + exactSum ns ∧
      (ns.map Value.integer).foldlM addNumber (.integer m) = .ok (.integer i) := by
  induction ns generalizing m with
  | nil => exact ⟨m, (Int.add_zero _).symm, rfl⟩
  | cons n rest ih =>
    have next : Fits (m.toInt + n.toInt) := by
      simpa using running [n] (List.prefix_append [n] rest)
    obtain ⟨sum, same⟩ := exists_toInt_eq next
    obtain ⟨i, value, folds⟩ := ih (m := sum) fun front begins => by
      rw [same, Int.add_assoc, ← exactSum_cons]
      exact running (n :: front) ((List.prefix_cons_inj n).2 begins)
    refine ⟨i, by rw [value, same, exactSum_cons, Int.add_assoc], ?_⟩
    rw [List.map_cons, List.foldlM_cons, addNumber_of_toInt same]
    exact folds

/-- If some running sum does not fit, the sum stops at the first such one. The overflow names the
sum up to there and the number that was to be added. -/
theorem exists_foldlM_addNumber_eq_error {front : List Integer} (begins : front <+: ns)
    (unfit : ¬ Fits (m.toInt + exactSum front)) :
    ∃ (before : List Integer) (sum n : Integer), before ++ [n] <+: ns ∧
      (∀ start, start <+: before → Fits (m.toInt + exactSum start)) ∧
      sum.toInt = m.toInt + exactSum before ∧ ¬ Fits (sum.toInt + n.toInt) ∧
      (ns.map Value.integer).foldlM addNumber (.integer m) =
        .error (.overflow (.operands sum .add n)) := by
  have atStart (m : Integer) : Fits (m.toInt + exactSum []) := by simpa using fits_toInt m
  -- by induction on the numbers, the sum so far being the next start
  induction ns generalizing m front with
  | nil =>
    obtain rfl := List.prefix_nil.1 begins
    exact absurd (atStart m) unfit
  | cons n rest ih =>
    rcases List.prefix_cons_iff.1 begins with rfl | ⟨front, rfl, behind⟩
    · exact absurd (atStart m) unfit
    · by_cases next : Fits (m.toInt + n.toInt)
      · obtain ⟨first, same⟩ := exists_toInt_eq next
        rw [exactSum_cons, ← Int.add_assoc, ← same] at unfit
        obtain ⟨before, sum, last, stops, running, value, beyond, folds⟩ := ih behind unfit
        refine ⟨n :: before, sum, last, (List.prefix_cons_inj n).2 stops, ?_, ?_, beyond, ?_⟩
        · intro start inside
          rcases List.prefix_cons_iff.1 inside with rfl | ⟨start, rfl, within⟩
          · exact atStart m
          · rw [exactSum_cons, ← Int.add_assoc, ← same]
            exact running start within
        · rw [value, same, exactSum_cons, Int.add_assoc]
        · rw [List.map_cons, List.foldlM_cons, addNumber_of_toInt same]
          exact folds
      · refine ⟨[], m, n, List.prefix_append [n] rest, ?_, (Int.add_zero _).symm, next, ?_⟩
        · intro start inside
          obtain rfl := List.prefix_nil.1 inside
          exact atStart m
        · rw [List.map_cons, List.foldlM_cons, addNumber_of_not_fits next]
          rfl

end

namespace Aggregate

open Integer

theorem fold_sum_of_fit {ns : List Integer} (fit : RunningSumsFit ns) :
    ∃ i : Integer, i.toInt = exactSum ns ∧ sum.fold (ns.map .integer) = .ok (.integer i) := by
  have running : ∀ front, front <+: ns → Fits ((0 : Integer).toInt + exactSum front) := by
    intro front begins
    rw [Int64.toInt_zero, Int.zero_add]
    exact fit.of_begins begins
  obtain ⟨i, value, folds⟩ := foldlM_addNumber running
  exact ⟨i, by simpa using value, folds⟩

theorem fold_sum_of_not_fit {ns : List Integer} (unfit : ¬ RunningSumsFit ns) :
    ∃ (before : List Integer) (total n : Integer), before ++ [n] <+: ns ∧
      RunningSumsFit before ∧ total.toInt = exactSum before ∧ ¬ Fits (total.toInt + n.toInt) ∧
      sum.fold (ns.map .integer) = .error (.overflow (.operands total .add n)) := by
  obtain ⟨front, mem, beyond⟩ : ∃ front, front ∈ ns.inits ∧ ¬ Fits (exactSum front) := by
    simpa [RunningSumsFit] using unfit
  obtain ⟨before, total, n, stops, running, value, overflows, folds⟩ :=
    exists_foldlM_addNumber_eq_error (m := 0) ((List.mem_inits _ _).1 mem) (by simpa using beyond)
  have fit : RunningSumsFit before := fun start inside => by
    simpa using running start ((List.mem_inits _ _).1 inside)
  exact ⟨before, total, n, stops, fit, by simpa using value, overflows, folds⟩

theorem exists_of_fold_sum_eq_ok {ns : List Integer} {v : Value}
    (folds : sum.fold (ns.map .integer) = .ok v) :
    ∃ i : Integer, i.toInt = exactSum ns ∧ v = .integer i := by
  by_cases fit : RunningSumsFit ns
  · obtain ⟨i, value, exact⟩ := fold_sum_of_fit fit
    cases folds.symm.trans exact
    exact ⟨i, value, rfl⟩
  · obtain ⟨_, _, _, _, _, _, _, overflows⟩ := fold_sum_of_not_fit fit
    cases folds.symm.trans overflows

/-! ## Rectangles -/

/-- The integer that was found, if it is one. -/
def integer? : Except FormulaError Value → Option Integer
  | .ok (.integer i) => some i
  | _ => none

/-- The integers found at the addresses of a range, in the order of the visit. -/
def integers (found : Address → Except FormulaError Value) (range : Range) : List Integer :=
  range.columns.filterMap fun a => integer? (found a)

/-- What is found in a rectangle after moving it around in there. -/
structure Rearranged (found moved : Address → Except FormulaError Value) (range : Range)
    (move : Address → Address) : Prop where
  into : ∀ a ∈ range, move a ∈ range
  apart : Set.InjOn move {a | a ∈ range}
  same : ∀ a ∈ range, moved (move a) = found a

variable {found moved : Address → Except FormulaError Value} {range : Range}
  {move : Address → Address}

/-- Where no float is found, all numbers are integers. -/
theorem collect_eq_integers (noFloat : ∀ a ∈ range, ∀ x, found a ≠ .ok (.float x)) :
    collect found range.columns = (integers found range).map Value.integer := by
  rw [collect_eq_filterMap, integers, List.map_filterMap]
  refine List.filterMap_congr fun a mem => ?_
  have other := noFloat a (Range.mem_columns.1 mem)
  match value : found a with
  | .ok (.float x) => exact absurd value (other x)
  | .ok (.integer _) | .ok (.string _) | .ok (.boolean _) | .error _ => rfl

namespace Rearranged

/-- Moving the addresses of a rectangle around in it leaves the rectangle as a whole. -/
theorem perm_columns (moves : Rearranged found moved range move) :
    (range.columns.map move).Perm range.columns := by
  have distinct : range.columns.Nodup := Address.nodup_of_pairwise_lt range.pairwise_columns
  have movedApart : (range.columns.map move).Nodup :=
    distinct.map_on fun a first b second same =>
      moves.apart (Range.mem_columns.1 first) (Range.mem_columns.1 second) same
  have within : range.columns.map move ⊆ range.columns := by
    intro b mem
    obtain ⟨a, inside, rfl⟩ := List.mem_map.1 mem
    exact Range.mem_columns.2 (moves.into a (Range.mem_columns.1 inside))
  refine (List.subperm_of_subset movedApart within).perm_of_length_le ?_
  rw [List.length_map]

/-- The same integers are found, in another order. -/
theorem perm_integers (moves : Rearranged found moved range move) :
    (integers moved range).Perm (integers found range) := by
  have visited : integers found range =
      (range.columns.map move).filterMap fun a => integer? (moved a) := by
    rw [integers, List.filterMap_map]
    refine List.filterMap_congr fun a mem => ?_
    rw [Function.comp_apply, moves.same a (Range.mem_columns.1 mem)]
  rw [visited]
  exact (moves.perm_columns.filterMap _).symm

theorem noFloat (moves : Rearranged found moved range move)
    (before : ∀ a ∈ range, ∀ x, found a ≠ .ok (.float x)) :
    ∀ a ∈ range, ∀ x, moved a ≠ .ok (.float x) := by
  intro b inside
  obtain ⟨a, mem, rfl⟩ := List.mem_map.1 (moves.perm_columns.mem_iff.2 (Range.mem_columns.2 inside))
  rw [moves.same a (Range.mem_columns.1 mem)]
  exact before a (Range.mem_columns.1 mem)

end Rearranged

end Aggregate

/-! ## Grids -/

namespace Context

open Aggregate Integer

/-- What a context finds at an address. -/
def found (c : Context) (a : Address) : Except FormulaError Value := (c.resolve a).result

/-- The sum of a range in which no float is found is the sum of the integers found there. -/
theorem result_sum {c : Context} {range : Range}
    (noFloat : ∀ a ∈ range, ∀ x, c.found a ≠ .ok (.float x)) :
    (c.evaluateExpr (.aggregate .sum range)).result =
      sum.fold ((integers c.found range).map .integer) := by
  have visited : (c.evaluateExpr (.aggregate .sum range)).result =
      sum.fold (collect c.found range.columns) := c.result_aggregate .sum range
  rw [visited, collect_eq_integers noFloat]

/-- What a session finds at an address is the value of the formula stored there. -/
theorem found_root {s : Session} {a : Address} {cell : Cell} {v : Value} {h : Nat}
    (stored : s.grid.lookup a = some cell) (value : FormulaHasValue s.grid cell.formula v h)
    (within : h < s.limit) : s.root.found a = .ok v := by
  have room : s.root.chain.length < s.root.limit := Nat.zero_lt_of_lt within
  have waits := (s.waitsFor_root (h + 1)).enter room stored value
  obtain ⟨tree, parsed, derived⟩ := value
  rw [found, result_resolve_of_lookup stored List.not_mem_nil room, parsed]
  refine (derived.result_eq rfl waits).trans (outcome_of_le ?_)
  show 1 + h ≤ s.limit
  omega

/-- The sum of integers is the exact sum if all running sums fit, and overflows at the first one
that does not. It has this value in every order exactly if the gains alone and the losses alone have
sums that fit. So where the values of a rectangle of integers are moved around in it, and the sum
has a value before and after, it has the same value. -/
theorem sum_spec :
    (∀ ns : List Integer,
      (RunningSumsFit ns → ∃ i : Integer, i.toInt = exactSum ns ∧
        sum.fold (ns.map .integer) = .ok (.integer i)) ∧
      (¬ RunningSumsFit ns → ∃ (before : List Integer) (total n : Integer), before ++ [n] <+: ns ∧
        RunningSumsFit before ∧ total.toInt = exactSum before ∧ ¬ Fits (total.toInt + n.toInt) ∧
        sum.fold (ns.map .integer) = .error (.overflow (.operands total .add n))) ∧
      ((∀ ms : List Integer, ms.Perm ns → RunningSumsFit ms) ↔
        Fits (gains ns) ∧ Fits (losses ns))) ∧
    ∀ (c d : Context) (range : Range) (move : Address → Address),
      (∀ a ∈ range, ∀ x, c.found a ≠ .ok (.float x)) → Rearranged c.found d.found range move →
      let ns := integers c.found range
      let ms := integers d.found range
      ms.Perm ns ∧
      (c.evaluateExpr (.aggregate .sum range)).result = sum.fold (ns.map .integer) ∧
      (d.evaluateExpr (.aggregate .sum range)).result = sum.fold (ms.map .integer) ∧
      (∀ v w, (c.evaluateExpr (.aggregate .sum range)).result = .ok v →
        (d.evaluateExpr (.aggregate .sum range)).result = .ok w → v = w) ∧
      (Fits (gains ns) ∧ Fits (losses ns) → ∃ i : Integer, i.toInt = exactSum ns ∧
        (c.evaluateExpr (.aggregate .sum range)).result = .ok (.integer i) ∧
        (d.evaluateExpr (.aggregate .sum range)).result = .ok (.integer i)) := by
  refine ⟨fun ns => ⟨fold_sum_of_fit, fold_sum_of_not_fit, runningSumsFit_perm_iff⟩, ?_⟩
  intro c d range move noFloat moves ns ms
  have perm : ms.Perm ns := moves.perm_integers
  have before : (c.evaluateExpr (.aggregate .sum range)).result = sum.fold (ns.map .integer) :=
    result_sum noFloat
  have after : (d.evaluateExpr (.aggregate .sum range)).result = sum.fold (ms.map .integer) :=
    result_sum (moves.noFloat noFloat)
  have agree : ∀ v w, sum.fold (ns.map .integer) = .ok v → sum.fold (ms.map .integer) = .ok w →
      v = w := by
    intro v w first second
    obtain ⟨i, value, rfl⟩ := exists_of_fold_sum_eq_ok first
    obtain ⟨j, other, rfl⟩ := exists_of_fold_sum_eq_ok second
    rw [Int64.toInt_inj.1 (value.trans ((exactSum_perm perm).symm.trans other.symm))]
  rw [before, after]
  refine ⟨perm, rfl, rfl, agree, fun bounded => ?_⟩
  have fit := runningSumsFit_perm_iff.2 bounded
  obtain ⟨i, value, sums⟩ := fold_sum_of_fit (fit ns (.refl ns))
  obtain ⟨j, _, movedSums⟩ := fold_sum_of_fit (fit ms perm)
  cases agree _ _ sums movedSums
  exact ⟨i, value, sums, movedSums⟩

/-- The greatest integer, one more and one less make the greatest integer, but not in this order. -/
theorem sum_overflows_midway :
    let ns : List Integer := [Int64.maxValue, 1, -1]
    let ms : List Integer := [Int64.maxValue, -1, 1]
    exactSum ns = Int64.maxValue.toInt ∧ ms.Perm ns ∧
      sum.fold (ns.map .integer) = .error (.overflow (.operands Int64.maxValue .add 1)) ∧
      sum.fold (ms.map .integer) = .ok (.integer Int64.maxValue) := by
  decide

/-- Two integers in a column, which change places. -/
theorem sum_spec_swapped :
    let top : Address := ⟨1, 1⟩
    let bottom : Address := ⟨1, 2⟩
    let range : Range := ⟨top, bottom⟩
    let c := (Session.mk (((∅ : Grid).insert top "1").insert bottom "2") 1).root
    let d := (Session.mk (((∅ : Grid).insert top "2").insert bottom "1") 1).root
    let move : Address → Address := fun a => if a = top then bottom else top
    RunningSumsFit [1, 2] ∧ ¬ RunningSumsFit [Int64.maxValue, 1, -1] ∧
    (∀ a ∈ range, ∀ x, c.found a ≠ .ok (.float x)) ∧ Rearranged c.found d.found range move ∧
    (∃ i : Integer, i.toInt = exactSum [1, 2] ∧ sum.fold ([1, 2].map .integer) = .ok (.integer i)) ∧
    (∃ total n : Integer, sum.fold ([Int64.maxValue, 1, -1].map .integer) =
      .error (.overflow (.operands total .add n))) ∧
    ∃ i : Integer, i.toInt = exactSum [1, 2] ∧
      (c.evaluateExpr (.aggregate .sum range)).result = .ok (.integer i) ∧
      (d.evaluateExpr (.aggregate .sum range)).result = .ok (.integer i) := by
  intro top bottom range c d move
  have isOne : IsWordOf .integer "1".toList := by decide
  have isTwo : IsWordOf .integer "2".toList := by decide
  have one : ∀ grid, FormulaHasValue grid "1" (.integer 1) 0 := fun grid =>
    ⟨_, (Spells.atom rfl isOne.lexes).group.ofText_eq, .literal (.integer rfl)⟩
  have two : ∀ grid, FormulaHasValue grid "2" (.integer 2) 0 := fun grid =>
    ⟨_, (Spells.atom rfl isTwo.lexes).group.ofText_eq, .literal (.integer rfl)⟩
  have firstTop : c.found top = .ok (.integer 1) := found_root rfl (one _) Nat.one_pos
  have firstBottom : c.found bottom = .ok (.integer 2) := found_root rfl (two _) Nat.one_pos
  have thenTop : d.found top = .ok (.integer 2) := found_root rfl (two _) Nat.one_pos
  have thenBottom : d.found bottom = .ok (.integer 1) := found_root rfl (one _) Nat.one_pos
  have visited : range.columns = [top, bottom] := by decide
  have inside : ∀ {a}, a ∈ range → a = top ∨ a = bottom := fun mem => by
    simpa [visited] using Range.mem_columns.2 mem
  have noFloat : ∀ a ∈ range, ∀ x, c.found a ≠ .ok (.float x) := by
    intro a mem x
    rcases inside mem with rfl | rfl
    · rw [firstTop]; nofun
    · rw [firstBottom]; nofun
  have moves : Rearranged c.found d.found range move := by
    refine ⟨fun a mem => ?_, fun a first b second same => ?_, fun a mem => ?_⟩
    · rcases inside mem with rfl | rfl <;> decide
    · rcases inside first with rfl | rfl <;> rcases inside second with rfl | rfl
      · rfl
      · exact absurd same (by decide)
      · exact absurd same (by decide)
      · rfl
    · rcases inside mem with rfl | rfl
      · exact thenBottom.trans firstTop.symm
      · exact thenTop.trans firstBottom.symm
  have numbers : integers c.found range = [1, 2] := by
    rw [integers, visited]
    simp only [List.filterMap_cons, List.filterMap_nil, firstTop, firstBottom, integer?]
  have fit : RunningSumsFit [1, 2] := by decide
  have unfit : ¬ RunningSumsFit [Int64.maxValue, 1, -1] := by decide
  have bounded : Fits (gains [1, 2]) ∧ Fits (losses [1, 2]) := by decide
  obtain ⟨_, total, n, _, _, _, _, overflows⟩ := (sum_spec.1 _).2.1 unfit
  obtain ⟨_, _, _, _, exact⟩ := sum_spec.2 c d range move noFloat moves
  rw [numbers] at exact
  exact ⟨fit, unfit, noFloat, moves, (sum_spec.1 _).1 fit, ⟨total, n, overflows⟩, exact bounded⟩

end Context

end CellFormula
