import CellFormula.Proofs.CommandLine.Dialogue

/-!
# Lists of formulas and dialogues

A list of formulas is run up to the first that fails. Up to there it says what a dialogue says on
whose lines these formulas stand, and it ends in the same session, as the formula that fails leaves
no trace.

Main statements: `Session.evalAll_append`, formulas that succeed are run one behind the other;
`Session.repl_writeLines`, a dialogue of formulas that were written; `Session.evalAll_agrees`.
-/

namespace CellFormula

/-- The formula fills a line by itself, and the line is run. -/
structure IsPlain (formula : String) : Prop where
  present : formula ≠ ""
  solid : '\n' ∉ formula.toList
  trimmed : trim formula.toList = formula.toList
  goesOn : formula ≠ "quit"

variable {formulas before : List String} {formula : String}

theorem IsPlain.formulaOf_eq (plain : IsPlain formula) : formulaOf formula = formula := by
  rw [formulaOf, plain.trimmed, String.ofList_toList]

theorem IsPlain.formulaOf_ne (plain : IsPlain formula) : formulaOf formula ≠ "quit" := by
  rw [plain.formulaOf_eq]
  exact plain.goesOn

theorem formulasOf_plain (plain : ∀ formula ∈ formulas, IsPlain formula) :
    formulasOf (formulas.map some) = formulas := by
  induction formulas with
  | nil => rfl
  | cons formula rest ih =>
    obtain ⟨first, others⟩ := List.forall_mem_cons.1 plain
    rw [List.map_cons, formulasOf_cons formula _ first.formulaOf_ne, first.formulaOf_eq,
      if_neg first.present, ih others, List.singleton_append]

theorem failureOf_plain (plain : ∀ formula ∈ formulas, IsPlain formula) :
    failureOf (formulas.map some) = none := by
  refine failureOf_of_goesOn (List.forall_mem_map.2 fun formula mem => ?_)
  exact goesOn_single (plain formula mem).formulaOf_ne _ List.mem_cons_self

/-- Formulas that succeed report nothing. -/
theorem join_errors {results : List (Except FormulaError Outcome)}
    (succeed : ∀ result ∈ results, result.isOk = true) :
    String.join ((results.map Message.ofResult).map Message.errors) = "" := by
  induction results with
  | nil => rfl
  | cons result rest ih =>
    obtain ⟨first, others⟩ := List.forall_mem_cons.1 succeed
    cases result with
    | error cause => cases first
    | ok outcome =>
      rw [List.map_cons, List.map_cons, String.join_cons, ih others]
      rfl

theorem errors_report {results : List (Except FormulaError Outcome)}
    (succeed : ∀ result ∈ results, result.isOk = true) (s : Session) (failure? : Option Failure) :
    (Transcript.mk (results.map .ofResult) s failure?).report.errors =
      (failure?.map Failure.report).getD "" := by
  simp only [Transcript.report, join_errors succeed, String.empty_append]

namespace Session

/-- A dialogue of plain formulas runs all of them. -/
theorem repl_writeLines (s : Session) (plain : ∀ formula ∈ formulas, IsPlain formula) :
    s.repl (decodeLines (writeLines formulas)) =
      ⟨(s.results formulas).map .ofResult, s.runAll formulas, none⟩ := by
  rw [decodeLines_writeLines fun formula mem => (plain formula mem).solid, repl_eq,
    formulasOf_plain plain, failureOf_plain plain]

theorem evalAll_of_ok {s : Session} {outcome : Outcome}
    (succeeds : (s.run formula).1.result = .ok outcome) (rest : List String) :
    s.evalAll (formula :: rest) =
      ((s.run formula).2.evalAll rest).after (.answer outcome.text) := by
  conv_lhs => unfold evalAll
  split <;> simp_all

theorem evalAll_of_error {s : Session} {cause : FormulaError}
    (fails : (s.run formula).1.result = .error cause) (rest : List String) :
    s.evalAll (formula :: rest) = ⟨[], (s.run formula).2, some (.formula formula cause)⟩ := by
  conv_lhs => unfold evalAll
  split <;> simp_all

/-- Behind formulas that succeed the others are run in the session that these leave. -/
theorem evalAll_append {s : Session} (succeed : ∀ result ∈ s.results before, result.isOk = true)
    (after : List String) :
    s.evalAll (before ++ after) =
      ⟨(s.results before).map .ofResult ++ ((s.runAll before).evalAll after).messages,
        ((s.runAll before).evalAll after).session, ((s.runAll before).evalAll after).failure?⟩ := by
  induction before generalizing s with
  | nil => rfl
  | cons formula rest ih =>
    rw [results] at succeed
    obtain ⟨first, others⟩ := List.forall_mem_cons.1 succeed
    cases found : (s.run formula).1.result with
    | error cause =>
      rw [found] at first
      cases first
    | ok outcome =>
      rw [List.cons_append, evalAll_of_ok found, ih others, results, found, runAll_cons]
      rfl
theorem evalAll_of_succeed {s : Session}
    (succeed : ∀ result ∈ s.results formulas, result.isOk = true) :
    s.evalAll formulas = ⟨(s.results formulas).map .ofResult, s.runAll formulas, none⟩ := by
  have all := evalAll_append succeed []
  rwa [List.append_nil, evalAll, List.append_nil] at all

theorem evalAll_of_fails {s : Session} {cause : FormulaError}
    (succeed : ∀ result ∈ s.results before, result.isOk = true)
    (fails : ((s.runAll before).run formula).1.result = .error cause) (after : List String) :
    s.evalAll (before ++ formula :: after) =
      ⟨(s.results before).map .ofResult, s.runAll before, some (.formula formula cause)⟩ := by
  have same : ((s.runAll before).run formula).2 = s.runAll before :=
    run_snd_of_error (run_fst _ formula ▸ fails)
  rw [evalAll_append succeed, evalAll_of_error fails, List.append_nil, same]

/-- A list of plain formulas is run like a dialogue on whose lines they stand. If all of them
succeed, both print the same and end in the same session, and nothing is reported. At the first that
fails the list ends with its failure, and what was printed and the session are those of a dialogue
of the formulas before it, whatever formulas are behind it. -/
theorem evalAll_agrees (s : Session) (plain : ∀ formula ∈ formulas, IsPlain formula) :
    ((∀ result ∈ s.results formulas, result.isOk = true) →
      let list := s.evalAll formulas
      let dialogue := s.repl (decodeLines (writeLines formulas))
      list.report.output = dialogue.report.output ∧ list.session = dialogue.session ∧
        list.failure? = none ∧ dialogue.failure? = none ∧ dialogue.report.errors = "") ∧
    ∀ before formula after cause, formulas = before ++ formula :: after →
      (∀ result ∈ s.results before, result.isOk = true) →
      ((s.runAll before).run formula).1.result = .error cause →
        let list := s.evalAll formulas
        let dialogue := s.repl (decodeLines (writeLines before))
        list.failure? = some (.formula formula cause) ∧
          list.report.errors = (Failure.formula formula cause).report ∧
          list.report.output = dialogue.report.output ∧ list.session = dialogue.session ∧
          list = s.evalAll (before ++ [formula]) := by
  refine ⟨fun succeed => ?_, ?_⟩
  · rw [evalAll_of_succeed succeed, repl_writeLines s plain]
    exact ⟨rfl, rfl, rfl, rfl, errors_report succeed _ _⟩
  · rintro before formula after cause rfl succeed fails
    have earlier : ∀ other ∈ before, IsPlain other := fun other mem =>
      plain other (List.mem_append_left _ mem)
    rw [evalAll_of_fails succeed fails, evalAll_of_fails succeed fails, repl_writeLines s earlier]
    exact ⟨rfl, errors_report succeed _ _, rfl, rfl, rfl⟩

/-- The target of the second formula is too far down, and the third is not run. -/
theorem evalAll_agrees_far_target :
    let s := Session.empty 1
    let near := "\x7bA,1\x7d[4]"
    let far := "\x7bA,99999999999999999999\x7d[4]"
    let cause :=
      FormulaError.coordinates (.malformed (.rowTooLarge "\x7bA,99999999999999999999\x7d"))
    let list := s.evalAll [near, far, near]
    let dialogue := s.repl (decodeLines (writeLines [near]))
    (∀ formula ∈ [near, far, near], IsPlain formula) ∧
    (∀ result ∈ s.results [near], result.isOk = true) ∧
    ((s.runAll [near]).run far).1.result = .error cause ∧
    list.failure? = some (.formula far cause) ∧ list.report.output = dialogue.report.output ∧
    list.session = dialogue.session := by
  intro s near far cause list dialogue
  have nearPlain : IsPlain near := ⟨by decide, by decide, by decide, by decide⟩
  have farPlain : IsPlain far := ⟨by decide, by decide, by decide, by decide⟩
  have plain : ∀ formula ∈ [near, far, near], IsPlain formula := by
    simp only [List.forall_mem_cons]
    exact ⟨nearPlain, farPlain, nearPlain, nofun⟩
  have assigns : IsAssignment near ⟨1, 1⟩ "4" := ⟨⟨6, 7⟩, by decide⟩
  have refused : lex far = .error cause := by decide
  have succeed : ∀ result ∈ s.results [near], result.isOk = true := by
    rw [results, results, run_fst, outcome_eq_assigned_iff.2 assigns]
    exact List.forall_mem_singleton.2 rfl
  have fails : ((s.runAll [near]).run far).1.result = .error cause := by
    rw [run_fst, outcome, Traced.result_bind, Traced.result_lift, refused]
    rfl
  obtain ⟨failure, _, output, session, _⟩ :=
    (evalAll_agrees s plain).2 [near] far [near] cause rfl succeed fails
  exact ⟨plain, succeed, fails, failure, output, session⟩

end Session

end CellFormula
