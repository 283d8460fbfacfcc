import CellFormula.Session
import CellFormula.Text.Lines

/-!
# Transcripts

What a run of several formulas says, line by line. `evalAll` runs a list of formulas and stops at
the first that fails; `repl` runs the lines of a dialogue, in which a failing formula is reported
and the next line is run.
-/

namespace CellFormula

/-- A message of a run. -/
inductive Message where
  /-- An outcome. -/
  | answer (text : String)
  /-- The error of a formula that does not end the run. -/
  | complaint (text : String)
deriving DecidableEq, Repr

/-- Why a run fails as a whole. -/
inductive Failure where
  | formula (formula : String) (cause : FormulaError)
  /-- A line of input is no text. -/
  | unreadable
deriving DecidableEq, Repr

/-- The messages of a run, the session at its end, and why it failed if it did. -/
structure Transcript where
  messages : List Message
  session : Session
  failure? : Option Failure

/-- A transcript with one more message in front. -/
def Transcript.after (m : Message) (t : Transcript) : Transcript :=
  ⟨m :: t.messages, t.session, t.failure?⟩

namespace Session

/-- Runs formulas in order, up to the first that fails. -/
def evalAll (s : Session) : List String → Transcript
  | [] => ⟨[], s, none⟩
  | formula :: rest =>
    match s.run formula with
    | (⟨_, .ok outcome⟩, next) => (next.evalAll rest).after (.answer outcome.text)
    | (⟨_, .error cause⟩, next) => ⟨[], next, some (.formula formula cause)⟩

/-- Runs the lines of a dialogue, without the blanks around them. Blank lines are passed over, and
a line `quit` ends the dialogue. -/
def repl (s : Session) : List (Option String) → Transcript
  | [] => ⟨[], s, none⟩
  | none :: _ => ⟨[], s, some .unreadable⟩
  | some line :: rest =>
    let formula := String.ofList (trim line.toList)
    if formula = "" then s.repl rest
    else if formula = "quit" then ⟨[], s, none⟩
    else
      match s.run formula with
      | (⟨_, .ok outcome⟩, next) => (next.repl rest).after (.answer outcome.text)
      | (⟨_, .error cause⟩, next) => (next.repl rest).after (.complaint cause.message)

end Session

end CellFormula
