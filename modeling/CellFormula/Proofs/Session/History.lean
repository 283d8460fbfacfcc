import CellFormula.Proofs.Evaluation.Errors
import CellFormula.Proofs.Grid
import CellFormula.Proofs.Tree.Levels

/-!
# Histories

What a session holds follows from the requests that it was sent. A request stores a formula at one
address, or erases one address, or leaves the grid alone, and nothing is stored on the way to an
error.

`Standing` says of a list of requests that a formula was the last to be stored at an address and was
not erased since. It speaks of the requests only, and not of the grid.

Main statements: `Session.change_handle`, what one request does to a session;
`Session.lookup_handleAll_iff`, a session holds what stands after its requests;
`Session.history_spec`, which adds how many cells there are and what a further request may change.
-/

namespace CellFormula

/-! ## Assignments -/

/-- The formula lexes to one token, which assigns the body to the address. -/
def IsAssignment (formula : String) (a : Address) (body : String) : Prop :=
  ∃ span, lex formula = .ok [⟨.assignment, body, span, some a⟩]

namespace Session

variable {s : Session} {formula body : String} {a : Address} {tokens : List Token}

theorem assigned?_eq_some_iff :
    assigned? tokens = some (a, body) ↔ ∃ span, tokens = [⟨.assignment, body, span, some a⟩] := by
  constructor
  · intro found
    unfold assigned? at found
    split at found
    · cases found
      exact ⟨_, rfl⟩
    · cases found
  · rintro ⟨span, rfl⟩
    rfl

theorem isAssignment_iff (lexed : lex formula = .ok tokens) :
    IsAssignment formula a body ↔ assigned? tokens = some (a, body) := by
  simp only [IsAssignment, lexed, Except.ok.injEq, assigned?_eq_some_iff]

/-- An assignment is the outcome of a formula that is one, and of no other. -/
theorem outcome_eq_assigned_iff :
    (s.outcome formula).result = .ok (.assigned a body) ↔ IsAssignment formula a body := by
  cases lexed : lex formula with
  | error e =>
    refine iff_of_false (fun found => ?_) (fun ⟨_, found⟩ => by rw [lexed] at found; cases found)
    rw [outcome, Traced.result_bind, Traced.result_lift, lexed] at found
    cases found
  | ok tokens =>
    rw [isAssignment_iff lexed, outcome, Traced.result_bind, Traced.result_lift, lexed, ok_bind,
      Traced.result_bind, Traced.result_emit, ok_bind]
    cases parts : assigned? tokens with
    | some assigned =>
      obtain ⟨b, other⟩ := assigned
      simp only [Traced.result_bind, Traced.result_emit, ok_bind, Traced.result_pure,
        Except.ok.injEq, Outcome.assigned.injEq, Option.some.injEq, Prod.mk.injEq]
    | none =>
      refine iff_of_false (fun found => ?_) nofun
      simp only [Traced.result_bind, Traced.result_emit, Traced.result_lift, ok_bind,
        Traced.result_pure] at found
      obtain ⟨tree, _, found⟩ := exists_of_bind_eq_ok found
      obtain ⟨v, _, found⟩ := exists_of_bind_eq_ok found
      cases found

theorem run_of_isAssignment (assigns : IsAssignment formula a body) :
    s.run formula = (s.outcome formula, ⟨s.grid.insert a body, s.limit⟩) := by
  simp only [run, outcome_eq_assigned_iff.2 assigns, keep]

/-- A formula whose outcome is no assignment leaves the session as it is. -/
theorem run_snd_of_outcome (other : ∀ a body, (s.outcome formula).result ≠ .ok (.assigned a body)) :
    (s.run formula).2 = s := by
  unfold run
  simp only
  split
  · next o found =>
    cases o with
    | assigned a body => exact absurd found (other a body)
    | value v => rfl
  · rfl

/-- A formula that fails leaves the session as it is. -/
theorem run_snd_of_error {e : FormulaError} (refused : (s.outcome formula).result = .error e) :
    (s.run formula).2 = s := by
  refine run_snd_of_outcome fun a body found => ?_
  rw [refused] at found
  cases found

end Session

/-! ## What one request does -/

namespace Request

/-- The request stores the formula at the address. -/
inductive Stores : Request → Address → String → Prop
  | run {formula body : String} {a : Address} (assigns : IsAssignment formula a body) :
      Stores (.run formula) a body
  | store (a : Address) (expr : Expr) : Stores (.store a expr) a expr.text
  | insert (a : Address) (formula : String) : Stores (.insert a formula) a formula

/-- The request stores a formula at the address or erases it. -/
def Touches (request : Request) (a : Address) : Prop :=
  request = .erase a ∨ ∃ formula, request.Stores a formula

/-- How a request changes a session. -/
inductive Change (s : Session) (request : Request) : Session → Prop
  | stored {a : Address} {formula : String} (stores : request.Stores a formula) :
      Change s request ⟨s.grid.insert a formula, s.limit⟩
  | erased {a : Address} (erases : request = .erase a) :
      Change s request ⟨s.grid.erase a, s.limit⟩
  | none (untouched : ∀ a, ¬ request.Touches a) : Change s request s

theorem Stores.unique {request : Request} {a b : Address} {formula other : String}
    (first : request.Stores a formula) (second : request.Stores b other) :
    a = b ∧ formula = other := by
  cases first with
  | run assigns =>
    cases second with
    | run others =>
      obtain ⟨_, lexed⟩ := assigns
      obtain ⟨_, same⟩ := others
      rw [lexed] at same
      cases same
      exact ⟨rfl, rfl⟩
  | store | insert => cases second; exact ⟨rfl, rfl⟩

end Request

namespace Session

open Request

variable {s : Session} {request : Request} {requests : List Request} {a b : Address}
  {formula : String}

/-- A request stores a formula, or erases an address, or leaves the session as it is. -/
theorem change_handle (s : Session) (request : Request) :
    Change s request (s.handle request).2 := by
  have untouching : (∀ a, request ≠ .erase a) → (∀ a formula, ¬ request.Stores a formula) →
      ∀ a, ¬ request.Touches a :=
    fun noErase noStore a touches => touches.elim (noErase a) fun ⟨formula, stores⟩ =>
      noStore a formula stores
  cases request with
  | run formula =>
    by_cases assigns : ∃ a body, IsAssignment formula a body
    · obtain ⟨a, body, assigns⟩ := assigns
      simp only [handle, run_of_isAssignment assigns]
      exact .stored (.run assigns)
    · have same : (s.run formula).2 = s := run_snd_of_outcome fun a body found =>
        assigns ⟨a, body, outcome_eq_assigned_iff.1 found⟩
      simp only [handle, same]
      refine .none (untouching nofun fun a body stores => ?_)
      cases stores with
      | run found => exact assigns ⟨a, body, found⟩
  | evaluate | evaluateTree | evaluateExpr | resolve => exact .none (untouching nofun nofun)
  | store a expr => exact .stored (.store a expr)
  | insert a formula => exact .stored (.insert a formula)
  | erase a => exact .erased rfl

/-- A request that fails leaves the session as it is. -/
theorem handle_snd_of_error {e : FormulaError} (failed : (s.handle request).1.result = .error e) :
    (s.handle request).2 = s := by
  cases request with
  | run formula =>
    have refused : (s.outcome formula).result = .error e := by
      simp only [handle, run_fst, map_eq_pure_bind, Traced.result_bind,
        Traced.result_pure] at failed
      rcases of_bind_eq_error failed with refused | ⟨_, _, found⟩
      · exact refused
      · cases found
    exact run_snd_of_error refused
  | evaluate | evaluateTree | evaluateExpr | resolve => rfl
  | store | insert | erase => cases failed

theorem lookup_of_stores (stores : request.Stores a formula) :
    (s.handle request).2.grid.lookup a = some ⟨a, formula⟩ := by
  have change := s.change_handle request
  generalize (s.handle request).2 = next at change ⊢
  cases change with
  | stored others =>
    obtain ⟨rfl, rfl⟩ := stores.unique others
    simp [Grid.lookup_insert]
  | erased erases => subst erases; cases stores
  | none untouched => exact absurd (Or.inr ⟨_, stores⟩) (untouched a)

theorem lookup_of_untouched (untouched : ¬ request.Touches a) :
    (s.handle request).2.grid.lookup a = s.grid.lookup a := by
  have change := s.change_handle request
  generalize (s.handle request).2 = next at change ⊢
  cases change with
  | @stored b formula stores =>
    have apart : b ≠ a := by
      rintro rfl
      exact untouched (Or.inr ⟨_, stores⟩)
    rw [Grid.lookup_insert, if_neg apart]
  | @erased b erases =>
    have apart : b ≠ a := by
      rintro rfl
      exact untouched (Or.inl erases)
    rw [Grid.lookup_erase, if_neg apart]
  | none => rfl

theorem lookup_of_erase : (s.handle (.erase a)).2.grid.lookup a = none := by
  simp [handle, Grid.lookup_erase]

/-- A request leaves all addresses but one as they are. -/
theorem exists_lookup_eq (s : Session) (request : Request) :
    ∃ a, ∀ b, b ≠ a → (s.handle request).2.grid.lookup b = s.grid.lookup b := by
  have change := s.change_handle request
  generalize (s.handle request).2 = next at change ⊢
  cases change with
  | @stored a formula _ =>
    exact ⟨a, fun b other => (Grid.lookup_insert ..).trans (if_neg other.symm)⟩
  | @erased a _ => exact ⟨a, fun b other => (Grid.lookup_erase ..).trans (if_neg other.symm)⟩
  | none => exact ⟨⟨0, 0⟩, fun _ _ => rfl⟩

/-! ## What a history leaves -/

/-- The session after some requests. -/
def handleAll (s : Session) (requests : List Request) : Session :=
  requests.foldl (fun s request => (s.handle request).2) s

theorem handleAll_concat (s : Session) (requests : List Request) (request : Request) :
    s.handleAll (requests ++ [request]) = ((s.handleAll requests).handle request).2 :=
  List.foldl_concat ..

end Session

/-- One of the requests stores the formula at the address, and no later one touches the address. -/
def Standing (requests : List Request) (a : Address) (formula : String) : Prop :=
  ∃ before request after, requests = before ++ request :: after ∧ request.Stores a formula ∧
    ∀ later ∈ after, ¬ later.Touches a

theorem standing_concat {requests : List Request} {request : Request} {a : Address}
    {formula : String} :
    Standing (requests ++ [request]) a formula ↔
      request.Stores a formula ∨ ¬ request.Touches a ∧ Standing requests a formula := by
  constructor
  · rintro ⟨before, write, after, split, stores, untouched⟩
    rcases after.eq_nil_or_concat with rfl | ⟨others, last, rfl⟩
    · obtain ⟨rfl, same⟩ := List.append_inj' split rfl
      cases same
      exact Or.inl stores
    · rw [List.concat_eq_append, ← List.cons_append, ← List.append_assoc] at split
      obtain ⟨rfl, same⟩ := List.append_inj' split rfl
      cases same
      rw [List.concat_eq_append, List.forall_mem_append] at untouched
      exact Or.inr ⟨untouched.2 request List.mem_cons_self, before, write, others, rfl, stores,
        untouched.1⟩
  · rintro (stores | ⟨untouched, before, write, after, rfl, stores, others⟩)
    · exact ⟨requests, request, [], rfl, stores, nofun⟩
    · refine ⟨before, write, after ++ [request], by simp, stores, ?_⟩
      exact List.forall_mem_append.2 ⟨others, List.forall_mem_singleton.2 untouched⟩

namespace Session

variable {limit : Nat} {requests : List Request} {a : Address} {cell : Cell}

/-- After any requests the cell at an address is the one that stands there. -/
theorem lookup_handleAll_iff :
    ((empty limit).handleAll requests).grid.lookup a = some cell ↔
      cell.address = a ∧ Standing requests a cell.formula := by
  induction requests using List.reverseRecOn with
  | nil =>
    refine iff_of_false nofun ?_
    rintro ⟨_, before, request, after, split, _⟩
    simp at split
  | append_singleton requests request ih =>
    rw [handleAll_concat, standing_concat]
    by_cases touches : request.Touches a
    · rcases touches with rfl | ⟨formula, stores⟩
      · rw [lookup_of_erase]
        refine iff_of_false nofun ?_
        rintro ⟨_, ⟨⟨⟩⟩ | ⟨untouched, _⟩⟩
        exact untouched (Or.inl rfl)
      · rw [lookup_of_stores stores]
        constructor
        · rintro ⟨⟩
          exact ⟨rfl, Or.inl stores⟩
        · rintro ⟨rfl, others | ⟨untouched, _⟩⟩
          · rw [(stores.unique others).2]
          · exact absurd (Or.inr ⟨formula, stores⟩) untouched
    · rw [lookup_of_untouched touches, ih]
      refine and_congr_right fun _ => ⟨fun stands => Or.inr ⟨touches, stands⟩, ?_⟩
      rintro (stores | ⟨_, stands⟩)
      · exact absurd (Or.inr ⟨_, stores⟩) touches
      · exact stands

theorem contains_handleAll_iff :
    ((empty limit).handleAll requests).grid.contains a = true ↔
      ∃ formula, Standing requests a formula := by
  rw [Grid.contains, Option.isSome_iff_exists]
  constructor
  · rintro ⟨cell, stored⟩
    exact ⟨cell.formula, (lookup_handleAll_iff.1 stored).2⟩
  · rintro ⟨formula, stands⟩
    exact ⟨⟨a, formula⟩, lookup_handleAll_iff.2 ⟨rfl, stands⟩⟩

/-- Whatever requests an empty session was sent: at each address there is the formula that was last
stored there, if it was not erased since, and there are no other cells. A further request changes
the grid at one address at most. A formula that is run stores its body if it lexes to an assignment,
and leaves the grid as it is if it does not. So does every request that is answered by an error,
wherever the error comes from. -/
theorem history_spec (limit : Nat) (requests : List Request) :
    let s := (empty limit).handleAll requests
    (∀ a cell, s.grid.lookup a = some cell ↔
      cell.address = a ∧ Standing requests a cell.formula) ∧
    {a | ∃ formula, Standing requests a formula}.encard = s.grid.size ∧
    (∀ request, ∃ a, ∀ b, b ≠ a →
      (s.handle request).2.grid.lookup b = s.grid.lookup b) ∧
    (∀ formula,
      (∀ a body, IsAssignment formula a body →
        (s.handle (.run formula)).2.grid = s.grid.insert a body) ∧
      ((¬ ∃ a body, IsAssignment formula a body) →
        (s.handle (.run formula)).2.grid = s.grid)) ∧
    ∀ request e, (s.handle request).1.result = .error e → (s.handle request).2 = s := by
  intro s
  refine ⟨fun a cell => lookup_handleAll_iff, ?_, exists_lookup_eq s, fun formula => ⟨?_, ?_⟩,
    fun request e => handle_snd_of_error⟩
  · have occupied : {a | ∃ formula, Standing requests a formula} = {a | s.grid.contains a = true} :=
      Set.ext fun a => contains_handleAll_iff.symm
    rw [occupied, s.grid.encard_occupied]
  · intro a body assigns
    simp only [handle, run_of_isAssignment assigns]
  · intro none
    have same : (s.run formula).2 = s := run_snd_of_outcome fun a body found =>
      none ⟨a, body, outcome_eq_assigned_iff.1 found⟩
    simp only [handle, same]

end Session

end CellFormula
